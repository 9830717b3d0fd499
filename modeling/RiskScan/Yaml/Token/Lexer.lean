import RiskScan.Yaml.Token.Scalars
/-!
# From text to tokens

Most tokens begin with a mark of their own. Two things cannot be told from where a token begins.
Whether something is a key shows only at the colon behind it, so the places of possible keys are
remembered, one for each level of flow collections, and the tokens for a key are put in later. And
blocks end without any mark, when a token stands further left than the block it would belong to.
-/

namespace RiskScan.Yaml

/-- A place at which a key may have begun. -/
structure PossibleKey where
  /-- How many tokens come before it. -/
  position : Nat
  /-- Whether nothing but a key can stand there. -/
  required : Bool
  start : Cursor

structure Lexer where
  cursor : Cursor
  /-- The tokens found so far, the last one first. -/
  tokens : List Token := []
  /-- The columns of the open blocks, the innermost first. -/
  indents : List Nat := []
  /-- The possible key of every open flow collection, the innermost first, and of the block
  around. -/
  keys : List (Option PossibleKey) := [none]
  keyAllowed : Bool := true

abbrev Lex := StateT Lexer (Except Error)

namespace Lex

/-- A reader of a part of a token, at work in the lexer. -/
def read {α : Type} (reader : Read α) : Lex α := do
  let lexer ← get
  match reader lexer.cursor with
  | .ok (a, cursor) =>
    set { lexer with cursor }
    return a
  | .error error => throw error

def emit (token : Token) : Lex Unit :=
  modify fun lexer => { lexer with tokens := token :: lexer.tokens }

def inFlow : Lex Bool := return 1 < (← get).keys.length

def allowKey (allowed : Bool) : Lex Unit :=
  modify fun lexer => { lexer with keyAllowed := allowed }

def setKey (key : Option PossibleKey) : Lex Unit :=
  modify fun lexer => { lexer with keys := key :: lexer.keys.drop 1 }

def currentKey : Lex (Option PossibleKey) := return (← get).keys.head?.join

def dropKey : Lex Unit := do
  match ← currentKey with
  | some key => if key.required then throw .malformed else setKey none
  | none => pure ()

/-- Remembers the current place as that of a possible key. -/
def noteKey : Lex Unit := do
  let lexer ← get
  if lexer.keyAllowed then
    dropKey
    setKey (some {
      position := lexer.tokens.length
      required := lexer.keys.length ≤ 1 && lexer.indents.head? == some lexer.cursor.column
      start := lexer.cursor })

/-- The furthest that a colon may stand from the beginning of its key. -/
def longestKey : Nat := 1024

/-- Gives up every possible key that the current place is too far from. -/
def dropStaleKeys : Lex Unit := do
  let lexer ← get
  let isStale := fun (key : PossibleKey) =>
    key.start.line != lexer.cursor.line || longestKey < lexer.cursor.index - key.start.index
  if lexer.keys.any (Option.any fun key => isStale key && key.required) then throw .malformed
  set { lexer with keys := lexer.keys.map (Option.filter fun key => !isStale key) }

/-- Ends the blocks that a token does not belong to which stands at some column. -/
def endBlocks (belongs : Nat → Bool) : Lex Unit := do
  unless ← inFlow do
    let lexer ← get
    let ended := lexer.indents.takeWhile fun indent => !belongs indent
    set { lexer with
      indents := lexer.indents.drop ended.length
      tokens := List.replicate ended.length Token.blockEnd ++ lexer.tokens }

/-- Begins a block at a column, unless the current block stands there already. -/
def beginBlock (column : Nat) : Lex Bool := do
  let lexer ← get
  if lexer.indents.head?.any (column ≤ ·) then return false
  set { lexer with indents := column :: lexer.indents }
  return true

def insertAt (position : Nat) (token : Token) : Lex Unit :=
  modify fun lexer =>
    let later := lexer.tokens.length - position
    { lexer with tokens := lexer.tokens.take later ++ token :: lexer.tokens.drop later }

/-- Skips spaces, comments and line ends before a token. A new line makes a key possible again. -/
def skipToToken : (fuel : Nat) → Lex Unit
  | 0 => pure ()
  | fuel + 1 => do
    read Read.skipSpaces
    if (← read Read.rest).head? = some '#' then read Read.skipLine
    match ← read Read.lineBreak? with
    | some _ =>
      unless ← inFlow do allowKey true
      skipToToken fuel
    | none => pure ()

/-- What has to be given up before a token that stands outside of all blocks. -/
def leaveBlocks : Lex Unit := do
  endBlocks fun _ => false
  dropKey
  allowKey false

def passEmit (length : Nat) (token : Token) : Lex Unit := do
  read (Read.pass length)
  emit token

def documentMark (token : Token) : Lex Unit := do
  leaveBlocks
  passEmit 3 token

def flowStart (token : Token) : Lex Unit := do
  noteKey
  modify fun lexer => { lexer with keys := none :: lexer.keys }
  allowKey true
  passEmit 1 token

/-- The end of a flow collection, which has to have begun. -/
def flowEnd (token : Token) : Lex Unit := do
  dropKey
  if !(← inFlow) then throw .malformed
  modify fun lexer => { lexer with keys := lexer.keys.drop 1 }
  allowKey false
  passEmit 1 token

def flowEntry : Lex Unit := do
  allowKey true
  dropKey
  passEmit 1 .flowEntry

/-- Begins a block at the current place if it needs one. -/
def ensureBlock (token : Token) : Lex Unit := do
  let lexer ← get
  if !lexer.keyAllowed then throw .malformed
  if ← beginBlock lexer.cursor.column then emit token

def blockEntry : Lex Unit := do
  unless ← inFlow do ensureBlock .blockSequenceStart
  allowKey true
  dropKey
  passEmit 1 .blockEntry

def explicitKey : Lex Unit := do
  unless ← inFlow do ensureBlock .blockMappingStart
  allowKey !(← inFlow)
  dropKey
  passEmit 1 .key

def value : Lex Unit := do
  match ← currentKey with
  | some key =>
    setKey none
    insertAt key.position .key
    unless ← inFlow do
      if ← beginBlock key.start.column then insertAt key.position .blockMappingStart
    allowKey false
  | none =>
    unless ← inFlow do ensureBlock .blockMappingStart
    allowKey !(← inFlow)
    dropKey
  passEmit 1 .value

def keyPart (reader : Read Token) : Lex Unit := do
  noteKey
  allowKey false
  emit (← read reader)

def plain : Lex Unit := do
  noteKey
  let lexer ← get
  let indent := (lexer.indents.head?.map (· + 1)).getD 0
  let (text, crossed) ← read (Read.plainScalar (← inFlow) indent lexer.cursor.fuel [])
  allowKey crossed
  emit (.scalar (String.ofList text) true)

def block (isFolded : Bool) : Lex Unit := do
  allowKey true
  dropKey
  let least := ((← get).indents.head?.map (· + 1)).getD 1
  emit (.scalar (String.ofList (← read (Read.blockScalar isFolded least))) false)

def quoted (quote : Char) : Read Token := do
  Read.pass 1
  return .scalar (String.ofList (← Read.quotedScalar quote (← get).fuel)) false

def named (token : String → Token) : Read Token := do
  Read.pass 1
  return token (← Read.name)

def indicators : List Char :=
  ['-', '?', ':', ',', '[', ']', '{', '}', '#', '&', '*', '!', '|', '>', '\'', '"', '%', '@', '`']

/-- Whether a plain scalar begins here. Three of the indicators begin one when no gap follows. -/
def beginsPlain (inFlow : Bool) : List Char → Bool
  | [] => false
  | c :: rest =>
    if isGap c then false
    else !indicators.contains c ||
      !atGap rest && (c == '-' || !inFlow && (c == '?' || c == ':'))

/-- One token, or more if blocks begin or end with it. Tells whether the text goes on. -/
def next : Lex Bool := do
  skipToToken (← get).cursor.fuel
  dropStaleKeys
  let cursor := (← get).cursor
  endBlocks fun indent => indent ≤ cursor.column
  let inFlow ← inFlow
  let following := cursor.rest.drop 1
  match cursor.rest with
  | [] =>
    leaveBlocks
    emit .streamEnd
    return false
  | c :: _ =>
    if c = '%' ∧ cursor.column = 0 then
      leaveBlocks
      emit (← read Read.directive)
    else if cursor.column = 0 && atDocumentMark cursor.rest then
      documentMark (if c = '-' then .documentStart else .documentEnd)
    else if c = '[' then flowStart .flowSequenceStart
    else if c = '{' then flowStart .flowMappingStart
    else if c = ']' then flowEnd .flowSequenceEnd
    else if c = '}' then flowEnd .flowMappingEnd
    else if c = ',' then flowEntry
    else if c = '-' ∧ atGap following then blockEntry
    else if c = '?' ∧ (inFlow ∨ atGap following) then explicitKey
    else if c = ':' ∧ (inFlow ∨ atGap following) then value
    else if c = '*' then keyPart (named .alias)
    else if c = '&' then keyPart (named .anchor)
    else if c = '!' then keyPart Read.tag
    else if c = '|' ∧ !inFlow then block false
    else if c = '>' ∧ !inFlow then block true
    else if c = '\'' ∨ c = '"' then keyPart (quoted c)
    else if beginsPlain inFlow cursor.rest then plain
    else throw .malformed
    return true

def all : (fuel : Nat) → Lexer → Lexer
  | 0, lexer => lexer
  | fuel + 1, lexer =>
    match next lexer with
    | .ok (true, lexer) => all fuel lexer
    | .ok (false, lexer) => lexer
    | .error error => { lexer with tokens := .broken error :: lexer.tokens }

end Lex

/-- The tokens of a text. A byte order mark may come before the first. -/
def tokens (text : List Char) : List Token :=
  let start : Cursor := { rest := text }
  let cursor := if text.head? = some '\ufeff' then start.step else start
  (Lex.all cursor.fuel { cursor }).tokens.reverse

end RiskScan.Yaml
