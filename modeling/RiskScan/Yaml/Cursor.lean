import RiskScan.Yaml.Error
/-!
# Places in a document

Indentation carries meaning, so reading a document keeps track of lines and columns. Besides the
line feed there are three more characters that end a line; two of them stay in the text, the third
is kept as a line feed. A byte order mark takes up no column.
-/

namespace RiskScan.Yaml

def isBreak (c : Char) : Bool :=
  c == '\n' || c == '\u0085' || c == '\u2028' || c == '\u2029'

/-- What a text keeps of a character that ends a line. -/
def keptBreak (c : Char) : Char :=
  if c == '\u0085' then '\n' else c

def isSpaceOrTab (c : Char) : Bool :=
  c == ' ' || c == '\t'

def isGap (c : Char) : Bool :=
  isSpaceOrTab c || isBreak c

/-- Whether a text is at its end or goes on with a gap. -/
def atGap : List Char → Bool
  | [] => true
  | c :: _ => isGap c

/-- Whether a text is at the end of a line. -/
def atLineEnd : List Char → Bool
  | [] => true
  | c :: _ => isBreak c

/-- Whether a text is at a space or at the end of a line; a tab does not count. -/
def atSpaceOrLineEnd : List Char → Bool
  | [] => true
  | c :: _ => c == ' ' || isBreak c

/-- Whether a text goes on with the mark between documents. -/
def atDocumentMark : List Char → Bool
  | '-' :: '-' :: '-' :: rest => atGap rest
  | '.' :: '.' :: '.' :: rest => atGap rest
  | _ => false

def isNameChar (c : Char) : Bool :=
  c.isAlphanum || c == '-' || c == '_'

structure Cursor where
  rest : List Char
  index : Nat := 0
  line : Nat := 0
  column : Nat := 0

namespace Cursor

def step (cursor : Cursor) : Cursor :=
  match cursor.rest with
  | [] => cursor
  | c :: rest =>
    if isBreak c then ⟨rest, cursor.index + 1, cursor.line + 1, 0⟩
    else if c == '\ufeff' then ⟨rest, cursor.index + 1, cursor.line, cursor.column⟩
    else ⟨rest, cursor.index + 1, cursor.line, cursor.column + 1⟩

def advance : (count : Nat) → Cursor → Cursor
  | 0, cursor => cursor
  | count + 1, cursor => advance count cursor.step

/-- The characters up to the first that does not satisfy `p`, and the place after them. -/
def span (p : Char → Bool) (cursor : Cursor) : List Char × Cursor :=
  let taken := cursor.rest.takeWhile p
  (taken, cursor.advance taken.length)

def skip (p : Char → Bool) (cursor : Cursor) : Cursor :=
  (cursor.span p).2

def skipSpaces (cursor : Cursor) : Cursor :=
  cursor.skip (· == ' ')

def skipLine (cursor : Cursor) : Cursor :=
  cursor.skip fun c => !isBreak c

/-- What is kept of a line end, and the place after it. -/
def takeBreak? (cursor : Cursor) : Option (Char × Cursor) :=
  match cursor.rest with
  | c :: _ => if isBreak c then some (keptBreak c, cursor.step) else none
  | [] => none

def fuel (cursor : Cursor) : Nat :=
  cursor.rest.length + 1

end Cursor

/-- A reader of a part of a document, which moves on to the place after it. -/
abbrev Read := StateT Cursor (Except Error)

namespace Read

def rest : Read (List Char) := return (← get).rest

def pass (count : Nat) : Read Unit := modify (Cursor.advance count)

def skipSpaces : Read Unit := modify Cursor.skipSpaces

def skipLine : Read Unit := modify Cursor.skipLine

def takeWhile (p : Char → Bool) : Read (List Char) := modifyGet (Cursor.span p)

def demand (condition : Bool) : Read Unit :=
  if condition then pure () else throw .malformed

end Read

end RiskScan.Yaml
