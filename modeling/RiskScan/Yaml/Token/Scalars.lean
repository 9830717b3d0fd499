import RiskScan.Yaml.Token.Names
/-!
# Scalars in a document

A scalar is written plainly, between quotes, or as an indented block. A line end inside a plain or
quoted scalar is folded: alone it becomes a space, and with blank lines after it these remain. A
literal block keeps its line ends, and a folded block folds those between lines that are not
indented further.
-/

namespace RiskScan.Yaml.Read

/-- What a line end stands for, given the line ends of the blank lines after it. -/
def folded (first : Char) (blank : List Char) : List Char :=
  if first ≠ '\n' then first :: blank
  else if blank.isEmpty then [' ']
  else blank

def lineBreak? : Read (Option Char) := do
  match (← get).takeBreak? with
  | some (c, after) =>
    set after
    return some c
  | none => return none

/-- The line ends of blank lines inside a quoted scalar, with the indentation of the next line. -/
def quotedBlankLines : (fuel : Nat) → Read (List Char)
  | 0 => throw .malformed
  | fuel + 1 => do
    demand (!atDocumentMark (← rest))
    discard (takeWhile isSpaceOrTab)
    match ← lineBreak? with
    | some c => return c :: (← quotedBlankLines fuel)
    | none => return []

def namedEscapes : List (Char × Char) :=
  [('0', '\x00'), ('a', '\x07'), ('b', '\x08'), ('t', '\t'), ('\t', '\t'), ('n', '\n'),
    ('v', '\x0b'),
    ('f', '\x0c'), ('r', '\r'), ('e', '\x1b'), (' ', ' '), ('"', '"'), ('\\', '\\'), ('/', '/'),
    ('N', '\u0085'), ('_', '\u00a0'), ('L', '\u2028'), ('P', '\u2029')]

def numericEscapes : List (Char × Nat) :=
  [('x', 2), ('u', 4), ('U', 8)]

def charOfCode (code : Nat) : Read Char :=
  if 0x10ffff < code then throw .escape
  else if code.isValidChar then return Char.ofNat code
  else throw .malformed

/-- What an escape stands for, from the character after its backslash. -/
def escaped : Read (List Char) := do
  match (← rest).head? with
  | none => throw .malformed
  | some c =>
    match namedEscapes.lookup c, numericEscapes.lookup c with
    | some meant, _ =>
      pass 1
      return [meant]
    | none, some digits =>
      pass 1
      return [← charOfCode (← hexNumber digits)]
    | none, none =>
      demand (isBreak c)
      pass 1
      quotedBlankLines (← get).fuel

/-- The text between a gap in a quoted scalar and what follows it. -/
def quotedGap : Read (List Char) := do
  let blanks ← takeWhile isSpaceOrTab
  demand (!(← rest).isEmpty)
  match ← lineBreak? with
  | some first => return folded first (← quotedBlankLines (← get).fuel)
  | none => return blanks

/-- A quoted scalar after its opening quote, up to and with the closing one. -/
def quotedScalar (quote : Char) : (fuel : Nat) → Read (List Char)
  | 0 => throw .malformed
  | fuel + 1 => do
    match ← rest with
    | [] => throw .malformed
    | c :: following =>
      if isGap c then
        let gap ← quotedGap
        return gap ++ (← quotedScalar quote fuel)
      else if c = quote then
        pass 1
        if quote = '\'' ∧ following.head? = some quote then
          pass 1
          return quote :: (← quotedScalar quote fuel)
        else return []
      else if c = '\\' ∧ quote = '"' then
        pass 1
        let meant ← escaped
        return meant ++ (← quotedScalar quote fuel)
      else
        pass 1
        return c :: (← quotedScalar quote fuel)

/-- How many characters of a plain scalar come before the next gap or the end of the scalar. -/
def plainLength (inFlow : Bool) : List Char → Nat
  | [] => 0
  | c :: rest =>
    if isGap c then 0
    else if c == ':' &&
        (atGap rest || inFlow && (rest.head?.map [',', '[', ']', '{', '}'].contains).getD
          false) then 0
    else if inFlow && [',', '?', '[', ']', '{', '}'].contains c then 0
    else plainLength inFlow rest + 1

/-- The line ends of blank lines inside a plain scalar, with the indentation of the next line, or
`none` at a mark between documents. -/
def plainBlankLines : (fuel : Nat) → Read (Option (List Char))
  | 0 => throw .malformed
  | fuel + 1 => do
    if atDocumentMark (← rest) then return none
    skipSpaces
    match ← lineBreak? with
    | some c => return (← plainBlankLines fuel).map (c :: ·)
    | none => return some []

/-- What lies between two stretches of a plain scalar, and whether it holds a line end. Nothing lies
where the scalar ends. -/
def plainGap : Read (List Char × Bool) := do
  let blanks ← takeWhile (· == ' ')
  match ← lineBreak? with
  | none => return (blanks, false)
  | some first =>
    match ← plainBlankLines (← get).fuel with
    | none => return ([], true)
    | some blank => return (folded first blank, true)

/-- A plain scalar and whether a line end follows it. Its later lines are indented by at least
`indent`. -/
def plainScalar (inFlow : Bool) (indent : Nat) :
    (fuel : Nat) → (gap : List Char) → Read (List Char × Bool)
  | 0, _ => throw .malformed
  | fuel + 1, gap => do
    let text ← rest
    let length := plainLength inFlow text
    let chunk := gap ++ text.take length
    pass length
    let (next, crossed) ← plainGap
    let after ← get
    if next.isEmpty || after.rest.head? = some '#' || !inFlow && after.column < indent ||
        plainLength inFlow after.rest = 0 then
      return (chunk, crossed)
    else
      let (more, crossed) ← plainScalar inFlow indent fuel next
      return (chunk ++ more, crossed)

/-- What becomes of the line ends after the last line of a block. -/
inductive Chomping where
  | strip
  | clip
  | keep
  deriving DecidableEq, Repr

def chomping? : Read (Option Chomping) := do
  match (← rest).head? with
  | some '+' =>
    pass 1
    return some .keep
  | some '-' =>
    pass 1
    return some .strip
  | _ => return none

def indentation? : Read (Option Nat) := do
  match (← rest).head? with
  | some c =>
    if c.isDigit then
      demand (c != '0')
      pass 1
      return some (c.toNat - '0'.toNat)
    else return none
  | none => return none

/-- The line after the mark of a block: chomping and indentation in either order. -/
def blockHeader : Read (Chomping × Option Nat) := do
  let first ← chomping?
  let increment ← indentation?
  let chomping ← if first.isNone ∧ increment.isSome then chomping? else pure first
  demand (atSpaceOrLineEnd (← rest))
  passLineEnd
  return (chomping.getD .clip, increment)

/-- The line ends before the first line of a block that has text, and the widest indentation
seen. -/
def leadingBlankLines : (fuel : Nat) → (widest : Nat) → Read (List Char × Nat)
  | 0, _ => throw .malformed
  | fuel + 1, widest => do
    skipSpaces
    let widest := max widest (← get).column
    match ← lineBreak? with
    | some c =>
      let (breaks, widest) ← leadingBlankLines fuel widest
      return (c :: breaks, widest)
    | none => return ([], widest)

def skipToColumn (column : Nat) : Read Unit := do
  let cursor ← get
  let spaces := (cursor.rest.takeWhile (· == ' ')).length
  pass (min spaces (column - cursor.column))

/-- The line ends of blank lines inside a block, with the indentation of the next line. -/
def blockBlankLines (indent : Nat) : (fuel : Nat) → Read (List Char)
  | 0 => throw .malformed
  | fuel + 1 => do
    skipToColumn indent
    match ← lineBreak? with
    | some c => return c :: (← blockBlankLines indent fuel)
    | none => return []

/-- Whether the place is at a line of a block that has text. -/
def atBlockLine (indent : Nat) : Read Bool := do
  let cursor ← get
  return cursor.column = indent && !cursor.rest.isEmpty

/-- The lines of a block, after the line ends of `blank` lines. -/
def blockLines (isFolded : Bool) (chomping : Chomping) (indent : Nat) :
    (fuel : Nat) → (blank : List Char) → Read (List Char)
  | 0, _ => throw .malformed
  | fuel + 1, blank => do
    let line ← takeWhile fun c => !isBreak c
    let ending := (← lineBreak?).toList
    let nextBlank ← blockBlankLines indent (← get).fuel
    if ← atBlockLine indent then
      let indented := fun (text : List Char) => (text.head?.map isSpaceOrTab).getD false
      let joint :=
        if isFolded && ending == ['\n'] && !indented line && !indented (← rest) then
          if nextBlank.isEmpty then [' '] else []
        else ending
      return blank ++ line ++ joint ++ (← blockLines isFolded chomping indent fuel nextBlank)
    else
      let tail := match chomping with
        | .strip => []
        | .clip => ending
        | .keep => ending ++ nextBlank
      return blank ++ line ++ tail

/-- A block scalar from its mark, inside a block of the given indentation. -/
def blockScalar (isFolded : Bool) (least : Nat) : Read (List Char) := do
  pass 1
  let (chomping, increment) ← blockHeader
  let (blank, indent) ← match increment with
    | none => do
      let (blank, widest) ← leadingBlankLines (← get).fuel 0
      pure (blank, max least widest)
    | some increment => do
      let indent := least + increment - 1
      pure (← blockBlankLines indent (← get).fuel, indent)
  if ← atBlockLine indent then blockLines isFolded chomping indent (← get).fuel blank
  else return if chomping = .keep then blank else []

end RiskScan.Yaml.Read
