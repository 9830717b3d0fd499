/-!
# Dates and times of day

A settings file may hold dates and moments. They are checked against the calendar when they are
read, and written in the form year, month, day, with the time of day after a blank.
-/

namespace RiskScan

structure Date where
  year : Nat
  month : Nat
  day : Nat
  deriving DecidableEq, Repr, Inhabited

structure TimeOfDay where
  hour : Nat
  minute : Nat
  second : Nat
  microsecond : Nat
  deriving DecidableEq, Repr

/-- A date with a time of day and, if the zone is known, its distance from Greenwich in minutes. -/
structure Moment where
  date : Date
  time : TimeOfDay
  offset : Option Int
  deriving DecidableEq, Repr

inductive CalendarError where
  | year (year : Nat)
  | month
  | day
  | hour
  | minute
  | second
  | offset (minutes : Int)
  deriving DecidableEq, Repr

namespace Calendar

def isLeapYear (year : Nat) : Bool :=
  year % 4 == 0 && (year % 100 != 0 || year % 400 == 0)

def daysInMonth (year month : Nat) : Nat :=
  if month = 2 then if isLeapYear year then 29 else 28
  else if month = 4 ∨ month = 6 ∨ month = 9 ∨ month = 11 then 30
  else 31

end Calendar

def Date.check (date : Date) : Except CalendarError Unit :=
  if date.year < 1 then .error (.year date.year)
  else if date.month < 1 ∨ 12 < date.month then .error .month
  else if date.day < 1 ∨ Calendar.daysInMonth date.year date.month < date.day then .error .day
  else .ok ()

def TimeOfDay.check (time : TimeOfDay) : Except CalendarError Unit :=
  if 23 < time.hour then .error .hour
  else if 59 < time.minute then .error .minute
  else if 59 < time.second then .error .second
  else .ok ()

/-- The distance from Greenwich is less than a day. -/
def checkOffset (minutes : Int) : Except CalendarError Unit :=
  if minutes.natAbs < 24 * 60 then .ok () else .error (.offset minutes)

/-- A number with zeros in front, up to a width. -/
def padded (width number : Nat) : String :=
  let digits := toString number
  "".pushn '0' (width - digits.length) ++ digits

def Date.text (date : Date) : String :=
  padded 4 date.year ++ "-" ++ padded 2 date.month ++ "-" ++ padded 2 date.day

def TimeOfDay.text (time : TimeOfDay) : String :=
  padded 2 time.hour ++ ":" ++ padded 2 time.minute ++ ":" ++ padded 2 time.second ++
    (if time.microsecond = 0 then "" else "." ++ padded 6 time.microsecond)

def offsetText (minutes : Int) : String :=
  (if minutes < 0 then "-" else "+") ++ padded 2 (minutes.natAbs / 60) ++ ":" ++
    padded 2 (minutes.natAbs % 60)

def Moment.text (moment : Moment) : String :=
  moment.date.text ++ " " ++ moment.time.text ++
    (match moment.offset with
      | none => ""
      | some minutes => offsetText minutes)

def numberList (numbers : List Nat) : String :=
  ", ".intercalate (numbers.map toString)

def Date.fields (date : Date) : List Nat :=
  [date.year, date.month, date.day]

/-- The fields of a time of day; seconds and microseconds are left out from the end while zero. -/
def TimeOfDay.fields (time : TimeOfDay) : List Nat :=
  [time.hour, time.minute] ++
    (if time.microsecond ≠ 0 then [time.second, time.microsecond]
      else if time.second ≠ 0 then [time.second] else [])

/-- A distance in time as days and seconds, the seconds never negative. -/
def durationText (minutes : Int) : String :=
  let seconds := minutes * 60
  let days := seconds.fdiv 86400
  let rest := seconds.fmod 86400
  let parts := (if days ≠ 0 then ["days=" ++ toString days] else []) ++
    (if rest ≠ 0 then ["seconds=" ++ toString rest] else [])
  "datetime.timedelta(" ++ (if parts.isEmpty then "0" else ", ".intercalate parts) ++ ")"

def zoneText (minutes : Int) : String :=
  if minutes = 0 then "datetime.timezone.utc"
  else "datetime.timezone(" ++ durationText minutes ++ ")"

/-- How a date is shown inside a list, a mapping or a message. -/
def Date.shown (date : Date) : String :=
  "datetime.date(" ++ numberList date.fields ++ ")"

def Moment.shown (moment : Moment) : String :=
  "datetime.datetime(" ++ numberList (moment.date.fields ++ moment.time.fields) ++
    (match moment.offset with
      | none => ""
      | some minutes => ", tzinfo=" ++ zoneText minutes) ++ ")"

def CalendarError.message : CalendarError → String
  | .year number => "year " ++ toString number ++ " is out of range"
  | .month => "month must be in 1..12"
  | .day => "day is out of range for month"
  | .hour => "hour must be in 0..23"
  | .minute => "minute must be in 0..59"
  | .second => "second must be in 0..59"
  | .offset minutes =>
    "offset must be a timedelta strictly between -timedelta(hours=24) and timedelta(hours=24), not " ++
      durationText minutes ++ "."

end RiskScan
