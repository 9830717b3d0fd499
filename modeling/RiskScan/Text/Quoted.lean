import RiskScan.Text.Printable
/-!
# Quoted text

Messages show a text between quotes in such a way that it can be read back. Single quotes are used
unless the text holds a single quote and no double quote. Inside, the backslash and the quote in use
are escaped, and so is every character that is not printable.
-/

namespace RiskScan.Text

/-- The last `width` hexadecimal digits of a number, in lower case. -/
def hexDigits : (width : Nat) → (code : Nat) → List Char
  | 0, _ => []
  | width + 1, code => hexDigits width (code / 16) ++ [Nat.digitChar (code % 16)]

/-- The numeric escape of a character, as short as its code point allows. -/
def numericEscape (c : Char) : List Char :=
  let code := c.toNat
  if code < 0x100 then '\\' :: 'x' :: hexDigits 2 code
  else if code < 0x10000 then '\\' :: 'u' :: hexDigits 4 code
  else '\\' :: 'U' :: hexDigits 8 code

def quotedChar (quote c : Char) : List Char :=
  if c == quote || c == '\\' then ['\\', c]
  else if c == '\n' then ['\\', 'n']
  else if c == '\r' then ['\\', 'r']
  else if c == '\t' then ['\\', 't']
  else if isPrintable c then [c]
  else numericEscape c

def quoteFor (text : List Char) : Char :=
  if text.contains '\'' && !text.contains '"' then '"' else '\''

def quoted (text : String) : String :=
  let chars := text.toList
  let quote := quoteFor chars
  String.ofList (quote :: chars.flatMap (quotedChar quote) ++ [quote])

/-- The quoted form in which every character beyond ASCII is escaped as well. -/
def quotedInAscii (text : String) : String :=
  String.ofList
    ((quoted text).toList.flatMap fun c => if c.toNat < 0x80 then [c] else numericEscape c)

end RiskScan.Text
