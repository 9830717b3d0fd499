import RiskScan.Value
import RiskScan.Decimal.Notation
import RiskScan.Decimal.Reading
import RiskScan.Text.Quoted
/-!
# The text of a value

A value has a plain text, which is what a setting of type text takes from it, and a form in which
messages and collections show it. They differ for texts, which are shown between quotes, and for
dates. Collections show their items in the second form. An integer of too many digits is not
written, so a value that holds one has neither.
-/

namespace RiskScan

open RiskScan.Decimal RiskScan.Text

/-- Floats are written out in full for leading digits from the fourth decimal place to the sixteenth
whole place, and whole numbers keep a zero after the point. -/
def valueFloats : FloatStyle :=
  { leastPlain := -4
    greatestPlain := 15
    loneDigitTail := ""
    nan := "nan"
    infinity := "inf" }

namespace Scalar

def plain : Scalar → String
  | .null => "None"
  | .bool true => "True"
  | .bool false => "False"
  | .int value => toString value
  | .float value => valueFloats.write value
  | .text value => value
  | .date value => value.text
  | .moment value => value.text

def shown : Scalar → String
  | .text value => quoted value
  | .date value => value.shown
  | .moment value => value.shown
  | value => value.plain

def hasText : Scalar → Bool
  | .int value => value.natAbs < Nat.pow 10 maxIntegerDigits
  | _ => true

end Scalar

namespace Value

mutual

def shown : Value → String
  | .scalar value => value.shown
  | .list items => "[" ++ ", ".intercalate (shownItems items) ++ "]"
  | .mapping entries => "\x7b" ++ ", ".intercalate (shownEntries entries) ++ "\x7d"

def shownItems : List Value → List String
  | [] => []
  | item :: items => item.shown :: shownItems items

def shownEntries : List (Scalar × Value) → List String
  | [] => []
  | (key, value) :: entries => (key.shown ++ ": " ++ value.shown) :: shownEntries entries

end

def plain : Value → String
  | .scalar value => value.plain
  | value => value.shown

mutual

/-- Whether everything in a value can be written. -/
def hasText : Value → Bool
  | .scalar value => value.hasText
  | .list items => itemsHaveText items
  | .mapping entries => entriesHaveText entries

def itemsHaveText : List Value → Bool
  | [] => true
  | item :: items => item.hasText && itemsHaveText items

def entriesHaveText : List (Scalar × Value) → Bool
  | [] => true
  | (key, value) :: entries => key.hasText && value.hasText && entriesHaveText entries

end

end Value

end RiskScan
