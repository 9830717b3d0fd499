import RiskScan.Yaml.Tag
import RiskScan.Value.Shown
/-!
# Writing documents

Collections are written as blocks, two columns deeper for each level, except that the items of a
sequence stand in the column of the key above them. A text is written plainly if it reads back as
the same text; with single quotes if it can be shown as it is; and otherwise with double quotes, in
which everything beyond ASCII is escaped. Lines are folded at single spaces beyond column 80.
-/

namespace RiskScan.Yaml

open RiskScan.Decimal

/-- Floats look like those in messages, except that there is always a point. -/
def documentFloats : FloatStyle :=
  { valueFloats with
    loneDigitTail := ".0"
    nan := ".nan"
    infinity := ".inf" }

namespace Writer

/-- The column beyond which a line is folded at the next space. -/
def bestWidth : Nat := 80

def spaces (count : Nat) : List Char :=
  List.replicate count ' '

def newLine (indent : Nat) : List Char :=
  '\n' :: spaces indent

def needsEscape (c : Char) : Bool :=
  c != '\n' && !(0x20 ≤ c.toNat && c.toNat ≤ 0x7e)

def isSpaceOrBreak (c : Char) : Bool :=
  c == ' ' || c == '\n'

def atSpaceOrEnd (text : List Char) : Bool :=
  (text.head?.map isSpaceOrBreak).getD true

/-- Whether a text has a space or a line end at either end. -/
def hasOuterSpace (text : List Char) : Bool :=
  (text.head?.map isSpaceOrBreak).getD false || (text.getLast?.map isSpaceOrBreak).getD false

/-- Whether a line end is next to a space, on the given side. -/
def hasPair (first second : Char) : List Char → Bool
  | a :: b :: rest => a == first && b == second || hasPair first second (b :: rest)
  | _ => false

/-- Whether a text begins with something that means more than itself. -/
def beginsWithIndicator : List Char → Bool
  | '-' :: '-' :: '-' :: _ => true
  | '.' :: '.' :: '.' :: _ => true
  | c :: rest =>
    "#,[]{}&*!|>'\"%@`".toList.contains c ||
      (c == '?' || c == ':' || c == '-') && atSpaceOrEnd rest
  | [] => false

/-- Whether a colon before a space or a number sign after one would end a plain text. -/
def hasInnerIndicator : (afterSpace : Bool) → List Char → Bool
  | _, [] => false
  | afterSpace, c :: rest =>
    c == ':' && atSpaceOrEnd rest || c == '#' && afterSpace ||
      hasInnerIndicator (isSpaceOrBreak c) rest

/-- Whether a text reads back as itself when it is written without quotes. -/
def isPlain (text : List Char) : Bool :=
  Tag.ofPlain text == .text && !text.any (fun c => needsEscape c || c == '\n') &&
    !hasOuterSpace text && !beginsWithIndicator text && !hasInnerIndicator true text

def fitsSingleQuotes (text : List Char) : Bool :=
  !text.any needsEscape && !hasPair '\n' ' ' text && !hasPair ' ' '\n' text

/-- Where a writer is: how much has been written on the line so far. -/
abbrev Column := Nat

def plain (indent : Nat) : (fuel : Nat) → Column → List Char → List Char
  | 0, _, text => text
  | fuel + 1, column, text =>
    match text with
    | [] => []
    | ' ' :: _ =>
      let gap := text.takeWhile (· == ' ')
      let rest := text.drop gap.length
      if gap.length = 1 ∧ bestWidth < column then newLine indent ++ plain indent fuel indent rest
      else gap ++ plain indent fuel (column + gap.length) rest
    | _ =>
      let word := text.takeWhile (· != ' ')
      word ++ plain indent fuel (column + word.length) (text.drop word.length)

/-- The inside of a text between single quotes. A single quote is doubled and a line end gets an
empty line. -/
def single (indent : Nat) : (fuel : Nat) → (isFirst : Bool) → Column → List Char → List Char
  | 0, _, _, text => text
  | fuel + 1, isFirst, column, text =>
    match text with
    | [] => []
    | '\'' :: rest => '\'' :: '\'' :: single indent fuel false (column + 2) rest
    | ' ' :: _ =>
      let gap := text.takeWhile (· == ' ')
      let rest := text.drop gap.length
      if gap.length = 1 ∧ bestWidth < column ∧ !isFirst ∧ !rest.isEmpty then
        newLine indent ++ single indent fuel false indent rest
      else gap ++ single indent fuel false (column + gap.length) rest
    | '\n' :: _ =>
      let breaks := text.takeWhile (· == '\n')
      '\n' :: breaks ++ spaces indent ++
        single indent fuel false indent (text.drop breaks.length)
    | _ =>
      let word := text.takeWhile fun c => !isSpaceOrBreak c && c != '\''
      word ++ single indent fuel false (column + word.length) (text.drop word.length)

def letterEscapes : List (Char × Char) :=
  [('\x00', '0'), ('\x07', 'a'), ('\x08', 'b'), ('\t', 't'), ('\n', 'n'), ('\x0b', 'v'),
    ('\x0c', 'f'),
    ('\r', 'r'), ('\x1b', 'e'), ('"', '"'), ('\\', '\\'), ('\u0085', 'N'), ('\u00a0', '_'),
    ('\u2028', 'L'), ('\u2029', 'P')]

def upperHex (width code : Nat) : List Char :=
  (Text.hexDigits width code).map Char.toUpper

def escape (c : Char) : List Char :=
  match letterEscapes.lookup c with
  | some letter => ['\\', letter]
  | none =>
    let code := c.toNat
    if code ≤ 0xff then '\\' :: 'x' :: upperHex 2 code
    else if code ≤ 0xffff then '\\' :: 'u' :: upperHex 4 code
    else '\\' :: 'U' :: upperHex 8 code

/-- Whether a character has to be escaped between double quotes. -/
def isEscaped (c : Char) : Bool :=
  c == '"' || c == '\\' || !(0x20 ≤ c.toNat && c.toNat ≤ 0x7e)

/-- The inside of a text between double quotes. A line may be folded with a backslash before a space
or after an escape, but not at the first or the last character. The column counts what has been
written, and `waiting` is what comes after it in the same stretch. -/
def double (indent : Nat) : (isFirst : Bool) → Column → (waiting : List Char) →
    List Char → List Char
  | _, _, waiting, [] => waiting
  | isFirst, column, waiting, c :: rest =>
    let mayFold := !isFirst && !rest.isEmpty
    if isEscaped c then
      let written := waiting ++ escape c
      let column := column + written.length
      if mayFold && bestWidth < column - 1 then
        written ++ '\\' :: newLine indent ++
          (if rest.head? = some ' ' then '\\' :: double indent false (indent + 1) [] rest
            else double indent false indent [] rest)
      else written ++ double indent false column [] rest
    else if mayFold && (c == ' ' || waiting.isEmpty) && bestWidth < column + waiting.length then
      waiting ++ '\\' :: newLine indent ++
        (if c == ' ' then '\\' :: double indent false (indent + 1) [c] rest
          else double indent false indent [c] rest)
    else double indent false column (waiting ++ [c]) rest

/-- A text that begins at some column, with `indent` for the lines after the first. -/
def text (indent : Nat) (column : Column) (chars : List Char) : List Char :=
  if isPlain chars then plain indent chars.length column chars
  else if fitsSingleQuotes chars then
    '\'' :: single indent chars.length true (column + 1) chars ++ ['\'']
  else '"' :: double indent true (column + 1) [] chars ++ ['"']

def scalar (indent : Nat) (column : Column) : Scalar → List Char
  | .null => "null".toList
  | .bool true => "true".toList
  | .bool false => "false".toList
  | .float value => (documentFloats.write value).toList
  | .text value => text indent column value.toList
  | value => value.plain.toList

mutual

/-- What follows the key of an entry on its line and below. -/
def entryValue (indent column : Nat) : Value → List Char
  | .scalar value => ' ' :: scalar (indent + 2) (column + 1) value ++ ['\n']
  | .list [] => " []\n".toList
  | .mapping [] => [' ', '{', '}', '\n']
  | .list values => '\n' :: items indent values
  | .mapping inner => '\n' :: entries (indent + 2) inner

/-- The entries of a mapping, each on a line of its own. -/
def entries (indent : Nat) : List (Scalar × Value) → List Char
  | [] => []
  | (key, value) :: rest =>
    let start := spaces indent ++ scalar (indent + 2) indent key ++ [':']
    start ++ entryValue indent start.length value ++ entries indent rest

/-- What follows the dash of an item. A collection begins on the same line. -/
def itemValue (indent : Nat) : Value → List Char
  | .scalar value => ' ' :: scalar (indent + 2) (indent + 2) value ++ ['\n']
  | .list [] => " []\n".toList
  | .mapping [] => [' ', '{', '}', '\n']
  | .list values => ' ' :: (items (indent + 2) values).drop (indent + 2)
  | .mapping inner => ' ' :: (entries (indent + 2) inner).drop (indent + 2)

/-- The items of a sequence, each on a line of its own. -/
def items (indent : Nat) : List Value → List Char
  | [] => []
  | value :: rest => spaces indent ++ '-' :: itemValue indent value ++ items indent rest

end

end Writer

def write (entries : List (Scalar × Value)) : List Char :=
  if entries.isEmpty then ['{', '}', '\n'] else Writer.entries 0 entries

end RiskScan.Yaml
