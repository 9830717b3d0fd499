import RiskScan.Yaml.Cursor
/-!
# The types of nodes

Every node has a tag for its type. A plain scalar without a tag gets one by the form of its text;
the forms below do not overlap. Besides the usual notations, integers may be written in base sixty,
with colons between the digits, and a leading zero means octal.
-/

namespace RiskScan.Yaml

inductive Tag where
  | null
  | bool
  | int
  | float
  | timestamp
  | text
  | sequence
  | mapping
  /-- The key under which other mappings are merged in. -/
  | merge
  /-- A lone equals sign, which is a text as a key and nothing elsewhere. -/
  | default
  /-- Any other type. There are no values of it. -/
  | unknown
  deriving DecidableEq, Repr

namespace Tag

def standardAddress : String := "tag:yaml.org,2002:"

def standard : List (String × Tag) :=
  [("null", .null), ("bool", .bool), ("int", .int), ("float", .float), ("timestamp", .timestamp),
    ("str", .text), ("seq", .sequence), ("map", .mapping), ("merge", .merge), ("value", .default)]

def ofAddress (address : String) : Tag :=
  ((standard.find? fun (name, _) => standardAddress ++ name == address).map (·.2)).getD .unknown

end Tag

namespace Form

/-- A word in lower case, capitalised or in upper case. -/
def isAnyCaseOf (words : List String) (text : List Char) : Bool :=
  words.any fun word =>
    let chars := word.toList
    let upper := chars.map Char.toUpper
    text == chars || text == upper || text == upper.take 1 ++ chars.drop 1

def isNull (text : List Char) : Bool :=
  text.isEmpty || text == ['~'] || isAnyCaseOf ["null"] text

def isBool (text : List Char) : Bool :=
  isAnyCaseOf ["yes", "no", "true", "false", "on", "off"] text

def dropSign : List Char → List Char
  | '-' :: rest => rest
  | '+' :: rest => rest
  | rest => rest

def isDigitOrUnderscore (c : Char) : Bool :=
  c.isDigit || c == '_'

def isOctalDigit (c : Char) : Bool :=
  '0' ≤ c && c ≤ '7'

def isHexDigit (c : Char) : Bool :=
  c.isDigit || 'a' ≤ c && c ≤ 'f' || 'A' ≤ c && c ≤ 'F'

/-- A digit of a number in base sixty, in decimal. -/
def isSixtieth : List Char → Bool
  | [c] => c.isDigit
  | [tens, ones] => '0' ≤ tens && tens ≤ '5' && ones.isDigit
  | _ => false

def colonParts : List Char → List (List Char)
  | [] => [[]]
  | c :: rest =>
    match colonParts rest with
    | [] => [[c]]
    | part :: parts => if c = ':' then [] :: part :: parts else (c :: part) :: parts

def isDecimal : List Char → Bool
  | [] => false
  | c :: rest => '1' ≤ c && c ≤ '9' && rest.all isDigitOrUnderscore

/-- One or more characters of a kind, among which underscores may stand. -/
def isNumeral (isDigit : Char → Bool) (text : List Char) : Bool :=
  !text.isEmpty && text.all fun c => isDigit c || c == '_'

def isUnsignedInt : List Char → Bool
  | ['0'] => true
  | '0' :: 'b' :: digits => isNumeral (fun c => c == '0' || c == '1') digits
  | '0' :: 'x' :: digits => isNumeral isHexDigit digits
  | '0' :: digits => isNumeral isOctalDigit digits
  | text =>
    match colonParts text with
    | first :: sixtieths => isDecimal first && sixtieths.all isSixtieth
    | [] => false

def isInt (text : List Char) : Bool :=
  isUnsignedInt (dropSign text)

def isExponent : List Char → Bool
  | [] => true
  | e :: sign :: digits =>
    (e == 'e' || e == 'E') && (sign == '-' || sign == '+') && !digits.isEmpty &&
      digits.all Char.isDigit
  | _ => false

def isFraction (digitNeeded exponentAllowed : Bool) : List Char → Bool
  | '.' :: rest =>
    let tail := rest.dropWhile isDigitOrUnderscore
    (!digitNeeded || (rest.head?.map Char.isDigit).getD false) &&
      if exponentAllowed then isExponent tail else tail.isEmpty
  | _ => false

def startsWithDigit (text : List Char) : Bool :=
  (text.head?.map Char.isDigit).getD false

def isUnsignedFloat (text : List Char) : Bool :=
  startsWithDigit text && isFraction false true (text.dropWhile isDigitOrUnderscore)

/-- A number in base sixty whose last digit has a fraction. -/
def isSixtiethFloat (text : List Char) : Bool :=
  let whole := text.takeWhile (· != '.')
  match colonParts whole with
  | first :: second :: more =>
    startsWithDigit first && first.all isDigitOrUnderscore && (second :: more).all isSixtieth &&
      isFraction false false (text.drop whole.length)
  | _ => false

def isInfinity : List Char → Bool
  | '.' :: word => isAnyCaseOf ["inf"] word
  | _ => false

def isNan (text : List Char) : Bool :=
  text == ".nan".toList || text == ".NaN".toList || text == ".NAN".toList

def isFloat (text : List Char) : Bool :=
  let body := dropSign text
  isUnsignedFloat body || isFraction true true text || isSixtiethFloat body || isInfinity body ||
    isNan text

/-- Up to two digits at the beginning of a text, at least `least` of them. -/
def takeTwoDigits? (least : Nat) (text : List Char) : Option (Nat × List Char) :=
  let digits := (text.take 2).takeWhile Char.isDigit
  if digits.length < least then none
  else some (Decimal.natOfDigits digits, text.drop digits.length)

def takeChar? (c : Char) : List Char → Option (List Char)
  | d :: rest => if c = d then some rest else none
  | [] => none

def takeYear? (text : List Char) : Option (Nat × List Char) :=
  let digits := text.take 4
  if digits.length = 4 ∧ digits.all Char.isDigit then
    some (Decimal.natOfDigits digits, text.drop 4)
  else none

/-- A date at the beginning of a text, with at least `least` digits in the month and in the day. -/
def takeDate? (least : Nat) (text : List Char) : Option (Date × List Char) := do
  let (year, rest) ← takeYear? text
  let (month, rest) ← takeTwoDigits? least (← takeChar? '-' rest)
  let (day, rest) ← takeTwoDigits? least (← takeChar? '-' rest)
  return (⟨year, month, day⟩, rest)

def takeTimeMark? : List Char → Option (List Char)
  | 'T' :: rest => some rest
  | 't' :: rest => some rest
  | c :: rest => if isSpaceOrTab c then some (rest.dropWhile isSpaceOrTab) else none
  | [] => none

/-- Millionths from the digits after the point. -/
def microseconds (digits : List Char) : Nat :=
  Decimal.natOfDigits ((digits ++ List.replicate 6 '0').take 6)

def takeTime? (text : List Char) : Option (TimeOfDay × List Char) := do
  let (hour, rest) ← takeTwoDigits? 1 text
  let (minute, rest) ← takeTwoDigits? 2 (← takeChar? ':' rest)
  let (second, rest) ← takeTwoDigits? 2 (← takeChar? ':' rest)
  match rest with
  | '.' :: rest =>
    let digits := rest.takeWhile Char.isDigit
    return (⟨hour, minute, second, microseconds digits⟩, rest.drop digits.length)
  | rest => return (⟨hour, minute, second, 0⟩, rest)

/-- The minutes of a zone, which may be left out. -/
def takeZoneMinutes? : List Char → Option (Nat × List Char)
  | ':' :: rest => takeTwoDigits? 2 rest
  | rest => some (0, rest)

/-- The end of a moment: its zone, if it has one. -/
def zone? (text : List Char) : Option (Option Int) :=
  match text.dropWhile isSpaceOrTab with
  | [] => if text.isEmpty then some none else none
  | ['Z'] => some (some 0)
  | sign :: rest => do
    if sign ≠ '+' ∧ sign ≠ '-' then none
    let (hours, rest) ← takeTwoDigits? 1 rest
    let (minutes, rest) ← takeZoneMinutes? rest
    if rest.isEmpty then
      let distance : Int := hours * 60 + minutes
      some (some (if sign = '-' then -distance else distance))
    else none

/-- A date, or a moment with a zone or without one, as it is written. -/
inductive Timestamp where
  | date (date : Date)
  | moment (moment : Moment)

/-- The timestamp that a text spells. A date alone has at least `least` digits in the month and in
the day. -/
def timestamp? (least : Nat) (text : List Char) : Option Timestamp :=
  match takeDate? least text with
  | some (date, []) => some (.date date)
  | _ => do
    let (date, rest) ← takeDate? 1 text
    let (time, rest) ← takeTime? (← takeTimeMark? rest)
    return .moment ⟨date, time, ← zone? rest⟩

end Form

/-- The type that a plain scalar has by its form. -/
def Tag.ofPlain (text : List Char) : Tag :=
  if Form.isNull text then .null
  else if Form.isBool text then .bool
  else if Form.isInt text then .int
  else if Form.isFloat text then .float
  else if (Form.timestamp? 2 text).isSome then .timestamp
  else if text == ['<', '<'] then .merge
  else if text == ['='] then .default
  else .text

end RiskScan.Yaml
