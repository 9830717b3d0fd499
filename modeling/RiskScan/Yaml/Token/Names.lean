import RiskScan.Text.Utf8
import RiskScan.Yaml.Cursor
import RiskScan.Yaml.Token
/-!
# Names, tags and directives

Anchors and aliases are names. A tag is written in full between angle brackets or as a handle
between exclamation marks with a rest. A directive stands on a line of its own.
-/

namespace RiskScan.Yaml.Read

def endsName : List Char → Bool
  | [] => true
  | c :: _ => isGap c || "?:,]\x7d%@`".toList.contains c

/-- The name of an anchor or alias, after its mark. -/
def name : Read String := do
  let chars ← takeWhile isNameChar
  demand (!chars.isEmpty && endsName (← rest))
  return String.ofList chars

def hexValue? (c : Char) : Option Nat :=
  if c.isDigit then some (c.toNat - '0'.toNat)
  else if 'a' ≤ c ∧ c ≤ 'f' then some (c.toNat - 'a'.toNat + 10)
  else if 'A' ≤ c ∧ c ≤ 'F' then some (c.toNat - 'A'.toNat + 10)
  else none

/-- The number that some hexadecimal digits at the beginning of a text spell. -/
def hexNumber? : (digits : Nat) → (value : Nat) → List Char → Option Nat
  | 0, value, _ => some value
  | _ + 1, _, [] => none
  | digits + 1, value, c :: rest =>
    (hexValue? c).bind fun digit => hexNumber? digits (value * 16 + digit) rest

def hexNumber (digits : Nat) : Read Nat := do
  match hexNumber? digits 0 (← rest) with
  | some number =>
    pass digits
    return number
  | none => throw .malformed

def octets : (fuel : Nat) → Read (List Nat)
  | 0 => throw .malformed
  | fuel + 1 => do
    if (← rest).head? = some '%' then
      pass 1
      let octet ← hexNumber 2
      return octet :: (← octets fuel)
    else return []

/-- The characters that a tag address may hold as they are. -/
def isAddressChar (c : Char) : Bool :=
  c.isAlphanum || "-;/?:@&=+$,_.!~*'()[]".toList.contains c

/-- A tag address, possibly empty, in which percent signs escape octets. -/
def addressPart : (fuel : Nat) → Read (List Char)
  | 0 => throw .malformed
  | fuel + 1 => do
    let chars ← takeWhile isAddressChar
    if (← rest).head? = some '%' then
      match Text.Utf8.decode (← octets (← get).fuel) with
      | .error _ => throw .malformed
      | .ok escaped => return chars ++ escaped ++ (← addressPart fuel)
    else return chars

def address : Read String := do
  let start ← get
  let chars ← addressPart start.fuel
  demand (start.index < (← get).index)
  return String.ofList chars

/-- A tag handle: an exclamation mark, and unless a space follows it, a name and another one. -/
def handle : Read String := do
  demand ((← rest).head? = some '!')
  pass 1
  if (← rest).head? = some ' ' then return "!"
  let chars ← takeWhile isNameChar
  demand ((← rest).head? = some '!')
  pass 1
  return String.ofList ('!' :: chars ++ ['!'])

/-- Whether another exclamation mark comes before the next space or line end. -/
def hasHandle (text : List Char) : Bool :=
  (text.takeWhile fun c => !(c == ' ' || isBreak c)).contains '!'

/-- The handle and the rest of a tag, from its exclamation mark. -/
def tagParts : Read (Option String × String) := do
  let inner := (← rest).drop 1
  if inner.head? = some '<' then
    pass 2
    let whole ← address
    demand ((← rest).head? = some '>')
    pass 1
    return (none, whole)
  if atGap inner then
    pass 1
    return (none, "!")
  if hasHandle inner then
    let start ← handle
    return (some start, ← address)
  pass 1
  return (some "!", ← address)

def tag : Read Token := do
  let (start, whole) ← tagParts
  demand (atSpaceOrLineEnd (← rest))
  return .tag start whole

def versionNumber : Read Nat := do
  let digits ← takeWhile Char.isDigit
  demand (!digits.isEmpty)
  return Decimal.natOfDigits digits

def version : Read Directive := do
  skipSpaces
  let major ← versionNumber
  demand ((← rest).head? = some '.')
  pass 1
  let _ ← versionNumber
  demand (atSpaceOrLineEnd (← rest))
  return .version major

def tagDirective : Read Directive := do
  skipSpaces
  let start ← handle
  demand ((← rest).head? = some ' ')
  skipSpaces
  let whole ← address
  demand (atSpaceOrLineEnd (← rest))
  return .tag start whole

/-- Passes what may follow on a line: spaces, a comment and the line end. -/
def passLineEnd : Read Unit := do
  skipSpaces
  if (← rest).head? = some '#' then skipLine
  demand (atLineEnd (← rest))
  pass 1

def directive : Read Token := do
  pass 1
  let chars ← takeWhile isNameChar
  demand (!chars.isEmpty && atSpaceOrLineEnd (← rest))
  let found ←
    if chars = "YAML".toList then version
    else if chars = "TAG".toList then tagDirective
    else do
      skipLine
      pure .other
  passLineEnd
  return .directive found

end RiskScan.Yaml.Read
