import RiskScan.Calendar
import RiskScan.Value.Number
/-!
# Documents that cannot be read

Everything that makes a text no document counts as one error. A well-formed document may still hold
a scalar that is no value of its type, and then the reason is given.
-/

namespace RiskScan.Yaml

inductive Error where
  /-- The text is no document, or not one of known types. -/
  | malformed
  /-- An escape for a character that does not exist. -/
  | escape
  | calendar (error : CalendarError)
  | number (error : NumberError)
  /-- An integer in a base of its own. -/
  | integer (base : Nat) (text : String)
  /-- A number without any character. -/
  | emptyNumber
  | notBool (text : String)
  | notTimestamp
  deriving DecidableEq, Repr

def Error.message : Error → String
  | .malformed => "<yaml error>"
  | .escape => "chr() arg not in range(0x110000)"
  | .calendar error => error.message
  | .number error => error.message
  | .integer base text =>
    "invalid literal for int() with base " ++ toString base ++ ": " ++ Text.quoted text
  | .emptyNumber => "string index out of range"
  | .notBool text => Text.quoted text
  | .notTimestamp => "'NoneType' object has no attribute 'groupdict'"

end RiskScan.Yaml
