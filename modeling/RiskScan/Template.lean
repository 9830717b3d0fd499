import RiskScan.Fault
import RiskScan.Text.Classes
import RiskScan.Text.Quoted
/-!
# Text with named fields

A template is a text in which a name between braces stands for a value, and a doubled brace for the
brace itself. After an exclamation mark a field may ask for the quoted form of its value. Positions
instead of names are understood, but no template has positional values. A name ends before a point
or a bracket, behind which a part of the value could be named; the values of a template have no
parts.
-/

namespace RiskScan

/-- What can stand in a field. -/
inductive FieldValue where
  | number (value : Int)
  | text (value : String)
  deriving DecidableEq, Repr

namespace FieldValue

def plain : FieldValue → String
  | .number value => toString value
  | .text value => value

def shown : FieldValue → String
  | .number value => toString value
  | .text value => Text.quoted value

def shownInAscii : FieldValue → String
  | .number value => toString value
  | .text value => Text.quotedInAscii value

end FieldValue

inductive TemplateError where
  | loneOpening
  | loneClosing
  | openingInName
  | unclosed
  | missingForm
  | afterForm
  | unclosedLayout
  | unknownName (name : String)
  | position (index : Nat)
  | positionTooLarge
  | unknownForm (letter : Char)
  /-- A part of a value is asked for. -/
  | noParts
  /-- A layout such as a width; fields are only ever written as they are. -/
  | unknownLayout (layout : String)
  deriving DecidableEq, Repr

namespace TemplateError

def kind : TemplateError → FaultKind
  | .unknownName _ => .key
  | .position _ => .index
  | _ => .value

/-- A character as itself, or by its code where it would not be seen. -/
def letterText (letter : Char) : String :=
  if 32 < letter.toNat && letter.toNat < 127 then String.singleton letter
  else "\\x" ++ String.ofList (Nat.toDigits 16 letter.toNat)

def message : TemplateError → String
  | .loneOpening => "Single '\x7b' encountered in format string"
  | .loneClosing => "Single '\x7d' encountered in format string"
  | .openingInName => "unexpected '\x7b' in field name"
  | .unclosed => "expected '\x7d' before end of string"
  | .missingForm => "end of string while looking for conversion specifier"
  | .afterForm => "expected ':' after conversion specifier"
  | .unclosedLayout => "unmatched '\x7b' in format spec"
  | .unknownName name => Text.quoted name
  | .position index =>
    "Replacement index " ++ toString index ++ " out of range for positional args tuple"
  | .positionTooLarge => "Too many decimal digits in format string"
  | .unknownForm letter => "Unknown conversion specifier " ++ letterText letter
  | .noParts => "no part of a value can stand in a field"
  | .unknownLayout layout => "Invalid format specifier " ++ Text.quoted layout

def fault (error : TemplateError) : Fault :=
  ⟨error.kind, error.message⟩

end TemplateError

/-- What stands between the braces of a field. -/
structure Field where
  name : List Char
  form : Option Char := none
  layout : List Char := []
  deriving DecidableEq, Repr

namespace Field

/-- The layout of a field up to its closing brace, and what follows. Braces inside it are paired. -/
def readLayout : (open_ : Nat) → (read : List Char) → List Char →
    Except TemplateError (List Char × List Char)
  | _, _, [] => .error .unclosedLayout
  | 0, read, '}' :: rest => .ok (read.reverse, rest)
  | open_ + 1, read, '}' :: rest => readLayout open_ ('}' :: read) rest
  | open_, read, '{' :: rest => readLayout (open_ + 1) ('{' :: read) rest
  | open_, read, c :: rest => readLayout open_ (c :: read) rest

/-- The name of a field and what follows it. Between brackets every character belongs to the
name. -/
def splitName : (inBrackets : Bool) → List Char → List Char × List Char
  | _, [] => ([], [])
  | inBrackets, c :: rest =>
    if !inBrackets && ['{', '}', ':', '!'].contains c then ([], c :: rest)
    else
      let (name, after) := splitName (if inBrackets then c != ']' else c == '[') rest
      (c :: name, after)

/-- Reads a field whose opening brace has just been read, and what follows its closing brace. -/
def read? (text : List Char) : Except TemplateError (Field × List Char) :=
  let (name, after) := splitName false text
  match after with
  | [] => .error .unclosed
  | '}' :: rest => .ok ({ name }, rest)
  | ':' :: rest => (readLayout 0 [] rest).map fun (layout, rest) => ({ name, layout }, rest)
  | '!' :: [] => .error .missingForm
  | '!' :: form :: '}' :: rest => .ok ({ name, form := some form }, rest)
  | '!' :: form :: ':' :: rest =>
    (readLayout 0 [] rest).map fun (layout, rest) => ({ name, form := some form, layout }, rest)
  | '!' :: _ :: [] => .error .unclosedLayout
  | '!' :: _ :: _ :: _ => .error .afterForm
  | _ => .error .openingInName

def largestPosition : Nat := Nat.pow 2 63 - 1

def wholeName (field : Field) : List Char :=
  field.name.takeWhile fun c => c != '.' && c != '['

def value (values : List (String × FieldValue)) (field : Field) :
    Except TemplateError FieldValue :=
  match field.wholeName.mapM Text.digitValue? with
  | some digits =>
    let index := digits.foldl (fun index digit => index * 10 + digit) 0
    .error (if index ≤ largestPosition then .position index else .positionTooLarge)
  | none =>
    match values.lookup (String.ofList field.wholeName) with
    | some value => if field.wholeName = field.name then .ok value else .error .noParts
    | none => .error (.unknownName (String.ofList field.wholeName))

def fill (values : List (String × FieldValue)) (field : Field) : Except TemplateError String := do
  let value ← field.value values
  let text ← match field.form with
    | none | some 's' => pure value.plain
    | some 'r' => pure value.shown
    | some 'a' => pure value.shownInAscii
    | some form => throw (.unknownForm form)
  if field.layout.isEmpty then return text
  throw (.unknownLayout (String.ofList field.layout))

end Field

namespace Template

/-- Fills the fields of a template from left to right. Every step takes at least one character. -/
def fillWithin (values : List (String × FieldValue)) :
    (fuel : Nat) → List Char → Except TemplateError (List Char)
  | 0, _ => .ok []
  | _ + 1, [] => .ok []
  | fuel + 1, '{' :: '{' :: rest => ('{' :: ·) <$> fillWithin values fuel rest
  | fuel + 1, '}' :: '}' :: rest => ('}' :: ·) <$> fillWithin values fuel rest
  | _ + 1, ['{'] => .error .loneOpening
  | _ + 1, '}' :: _ => .error .loneClosing
  | fuel + 1, '{' :: rest => do
    let (field, rest) ← Field.read? rest
    let text ← field.fill values
    return text.toList ++ (← fillWithin values fuel rest)
  | fuel + 1, c :: rest => (c :: ·) <$> fillWithin values fuel rest

def fill (values : List (String × FieldValue)) (template : String) :
    Except TemplateError String :=
  (fillWithin values (template.length + 1) template.toList).map String.ofList

end Template

end RiskScan
