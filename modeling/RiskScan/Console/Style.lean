import RiskScan.Decimal.Reading
import RiskScan.Fault
/-!
# Styles of a console

A style is written in words: effects, each of which may be turned off, a colour, a colour for the
background after `on`, and an address after `link`. One style can be written in several ways, and
two ways mean the same style if they have the same canonical form. A text that is no style stands
for itself, apart from capital letters and from blanks around it.
-/

namespace RiskScan.Console

open Text Decimal

/-! ### Words -/

/-- The words of a text, where `pending` has been read of a word, the last character first. -/
def wordsFrom (pending : List Char) : List Char → List (List Char)
  | [] => if pending.isEmpty then [] else [pending.reverse]
  | c :: rest =>
    if isBlank c then (if pending.isEmpty then [] else [pending.reverse]) ++ wordsFrom [] rest
    else wordsFrom (c :: pending) rest

def words (text : String) : List String :=
  (wordsFrom [] text.toList).map String.ofList

def lower (text : String) : String :=
  String.ofList (lowerCase text.toList)

/-! ### Colours -/

/-- The names of colours, without the shades of grey. -/
def colorNames : List String := [
  "default", "black", "red", "green", "yellow", "blue", "magenta", "cyan", "white",
  "bright_black", "bright_red", "bright_green", "bright_yellow", "bright_blue", "bright_magenta",
  "bright_cyan", "bright_white", "navy_blue", "dark_blue", "blue3", "blue1", "dark_green",
  "deep_sky_blue4", "dodger_blue3", "dodger_blue2", "green4", "spring_green4", "turquoise4",
  "deep_sky_blue3", "dodger_blue1", "dark_cyan", "light_sea_green", "deep_sky_blue2",
  "deep_sky_blue1", "green3", "spring_green3", "cyan3", "dark_turquoise", "turquoise2", "green1",
  "spring_green2", "spring_green1", "medium_spring_green", "cyan2", "cyan1", "purple4", "purple3",
  "blue_violet", "medium_purple4", "slate_blue3", "royal_blue1", "chartreuse4", "pale_turquoise4",
  "steel_blue", "steel_blue3", "cornflower_blue", "dark_sea_green4", "cadet_blue", "sky_blue3",
  "chartreuse3", "sea_green3", "aquamarine3", "medium_turquoise", "steel_blue1", "sea_green2",
  "sea_green1", "dark_slate_gray2", "dark_red", "dark_magenta", "orange4", "light_pink4", "plum4",
  "medium_purple3", "slate_blue1", "wheat4", "light_slate_grey", "light_slate_gray",
  "medium_purple", "light_slate_blue", "yellow4", "dark_sea_green", "light_sky_blue3", "sky_blue2",
  "chartreuse2", "pale_green3", "dark_slate_gray3", "sky_blue1", "chartreuse1", "light_green",
  "aquamarine1", "dark_slate_gray1", "deep_pink4", "medium_violet_red", "dark_violet", "purple",
  "medium_orchid3", "medium_orchid", "dark_goldenrod", "rosy_brown", "medium_purple2",
  "medium_purple1", "dark_khaki", "navajo_white3", "light_steel_blue3", "light_steel_blue",
  "dark_olive_green3", "dark_sea_green3", "light_cyan3", "light_sky_blue1", "green_yellow",
  "dark_olive_green2", "pale_green1", "dark_sea_green2", "pale_turquoise1", "red3", "deep_pink3",
  "magenta3", "dark_orange3", "indian_red", "hot_pink3", "hot_pink2", "orchid", "orange3",
  "light_salmon3", "light_pink3", "pink3", "plum3", "violet", "gold3", "light_goldenrod3", "tan",
  "misty_rose3", "thistle3", "plum2", "yellow3", "khaki3", "light_yellow3", "light_steel_blue1",
  "yellow2", "dark_olive_green1", "dark_sea_green1", "honeydew2", "light_cyan1", "red1",
  "deep_pink2", "deep_pink1", "magenta2", "magenta1", "orange_red1", "indian_red1", "hot_pink",
  "medium_orchid1", "dark_orange", "salmon1", "light_coral", "pale_violet_red1", "orchid2",
  "orchid1", "orange1", "sandy_brown", "light_salmon1", "light_pink1", "pink1", "plum1", "gold1",
  "light_goldenrod2", "navajo_white1", "misty_rose1", "thistle1", "yellow1", "light_goldenrod1",
  "khaki1", "wheat1", "cornsilk1"]

/-- The numbers of the shades of grey that have a name. -/
def greyLevels : List Nat :=
  [0, 3, 7, 11, 15, 19, 23, 27, 30, 35, 37, 39, 42, 46, 50, 53, 54, 58, 62, 63, 66, 69, 70, 74, 78,
    82, 84, 85, 89, 93, 100]

def isGrey (word : String) : Bool :=
  greyLevels.any fun level => word == "grey" ++ toString level || word == "gray" ++ toString level

/-- What stands in round brackets behind a function name. -/
def arguments? (function : String) (word : String) : Option (List Char) :=
  let opening := (function ++ "(").toList
  let chars := word.toList
  if opening.isPrefixOf chars && chars.getLast? == some ')' then
    some (chars.drop opening.length).dropLast
  else none

def isHexadecimal (word : String) : Bool :=
  match word.toList with
  | '#' :: digits => digits.length == 6 && digits.all fun c => c.isDigit || ('a' ≤ c && c ≤ 'f')
  | _ => false

/-- Whether a word is a colour by its number. -/
def isNumbered (word : String) : Bool :=
  (arguments? "color" word).any fun digits =>
    !digits.isEmpty && digits.length ≤ 3 && digits.all Char.isDigit && natOfDigits digits ≤ 255

/-- Whether a word is a colour by its three components. A component without digits is a fault. -/
def isMixed (word : String) : Except Fault Bool :=
  match arguments? "rgb" word with
  | none => .ok false
  | some chars =>
    let components := (String.ofList chars).splitOn ","
    if !chars.all (fun c => c == ',' || (digitValue? c).isSome) || components.length != 3 then
      .ok false
    else if components.contains "" then
      .error ⟨.value, "invalid literal for int() with base 10: ''"⟩
    else .ok (components.all fun digits => natOfDigits (asciiDigits digits.toList) ≤ 255)

def isColor (word : String) : Except Fault Bool :=
  if colorNames.contains word || isGrey word || isHexadecimal word || isNumbered word then .ok true
  else isMixed word

/-! ### Styles -/

/-- The effects in the order of canonical forms, each with its spellings. -/
def effects : List (String × List String) := [
  ("bold", ["bold", "b"]), ("dim", ["dim", "d"]), ("italic", ["italic", "i"]),
  ("underline", ["underline", "u"]), ("blink", ["blink"]), ("blink2", ["blink2"]),
  ("reverse", ["reverse", "r"]), ("conceal", ["conceal", "c"]), ("strike", ["strike", "s"]),
  ("underline2", ["underline2", "uu"]), ("frame", ["frame"]), ("encircle", ["encircle"]),
  ("overline", ["overline", "o"])]

def effect? (word : String) : Option String :=
  (effects.find? fun effect => effect.2.contains word).map Prod.fst

structure Style where
  /-- Which effects are turned on or off, the latest setting first. -/
  settings : List (String × Bool) := []
  color : Option String := none
  background : Option String := none
  link : Option String := none

namespace Style

/-- Reads the words of a style, or finds that they are none. -/
def read? (style : Style) : List String → Except Fault (Option Style)
  | [] => .ok (some style)
  | original :: rest =>
    let word := lower original
    if word == "on" then
      match rest with
      | [] => .ok none
      | color :: rest => do
        if ← isColor (lower color) then read? { style with background := some (lower color) } rest
        else return none
    else if word == "not" then
      match rest with
      | [] => .ok none
      | name :: rest =>
        match effect? name with
        | some effect =>
          read? { style with settings := (effect, false) :: style.settings } rest
        | none => .ok none
    else if word == "link" then
      match rest with
      | [] => .ok none
      | address :: rest => read? { style with link := some address } rest
    else
      match effect? word with
      | some effect => read? { style with settings := (effect, true) :: style.settings } rest
      | none => do
        if ← isColor word then read? { style with color := some word } rest else return none

def settingWords (style : Style) : List String :=
  effects.filterMap fun effect =>
    (style.settings.lookup effect.1).map fun isOn =>
      if isOn then effect.1 else "not " ++ effect.1

def canonical (style : Style) : String :=
  let written := style.settingWords ++ style.color.toList ++
    (style.background.map ("on " ++ ·)).toList ++ (style.link.map ("link " ++ ·)).toList
  if written.isEmpty then "none" else " ".intercalate written

end Style

/-- The canonical form of a style, or of a text that is none. -/
def canonicalName (text : String) : Except Fault String := do
  match ← Style.read? {} (words text) with
  | some style => return style.canonical
  | none => return lower (String.ofList (strip text.toList))

end RiskScan.Console
