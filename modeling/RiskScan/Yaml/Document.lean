import RiskScan.Yaml.Node
import RiskScan.Yaml.Scalar
/-!
# Reading documents

A node becomes a value level by level: everything at one depth is turned into values before anything
deeper, so of several failures the one that is nearest to the top counts, and the first of those.
Keys are scalars. A later entry replaces the value of an earlier one with the same key, and entries
that are merged in come before all others.
-/

namespace RiskScan.Yaml

/-- A failure some levels below a node. -/
structure Failure where
  depth : Nat
  error : Error

/-- The value of a node and all failures in it, in the order of the text. -/
structure Built where
  value : Value
  failures : List Failure

namespace Built

def failing (depth : Nat) (error : Error) : Built :=
  ⟨.null, [⟨depth, error⟩]⟩

def raised (built : Built) : List Failure :=
  built.failures.map fun failure => { failure with depth := failure.depth + 1 }

def ofScalar (scalar : Except Error Scalar) : Built :=
  match scalar with
  | .ok value => ⟨.scalar value, []⟩
  | .error error => failing 0 error

end Built

/-- An entry of a mapping whose key and value have been built. -/
structure BuiltEntry where
  key : Built
  value : Built

namespace BuiltEntry

/-- The failures of an entry. A key that is a collection fails before its items are looked at. -/
def failures (entry : BuiltEntry) : List Failure :=
  (match entry.key.value with
    | .scalar _ => entry.key.raised
    | _ => (entry.key.failures.filter (·.depth == 0)).map (⟨1, ·.error⟩) ++ [⟨1, .malformed⟩]) ++
  entry.value.raised

end BuiltEntry

/-- Whether two scalars are the same as keys: numbers of all types are compared by what they are,
and there is one key that is not a number. -/
def sameKey : Scalar → Scalar → Bool
  | .float x, .float y => x == y || x.isNaN && y.isNaN
  | .float x, other | other, .float x =>
    match (Value.scalar other).toInt, wholePart x with
    | .ok number, .ok whole =>
      (other matches .int _ || other matches .bool _) && number == whole && Float.ofInt whole == x
    | _, _ => false
  | .bool a, .int b | .int b, .bool a => b == (if a then 1 else 0)
  | a, b => a == b

/-- Sets the value of a key, which keeps its place if it is there already. -/
def setEntry (key : Scalar) (value : Value) : List (Scalar × Value) → List (Scalar × Value)
  | [] => [(key, value)]
  | (candidate, old) :: entries =>
    if sameKey candidate key then (candidate, value) :: entries
    else (candidate, old) :: setEntry key value entries

def addEntry (entries : List (Scalar × Value)) (entry : BuiltEntry) : List (Scalar × Value) :=
  match entry.key.value with
  | .scalar key => setEntry key entry.value.value entries
  | _ => entries

def mappingOf (entries : List BuiltEntry) : Built :=
  ⟨.mapping (entries.foldl addEntry []), entries.flatMap BuiltEntry.failures⟩

/-- The entries of a mapping apart from those merged in, and those. -/
structure Entries where
  merged : List BuiltEntry
  own : List BuiltEntry

/-- Whether a key asks for other mappings to be merged in. -/
def Node.isMergeKey : Node → Bool
  | .scalar .merge _ => true
  | .sequence .merge _ => true
  | .mapping .merge _ => true
  | _ => false

/-- What has been built of a node as the key of an entry; a lone equals sign is a text there. -/
def Built.asKey (built : Built) : Node → Built
  | .scalar .default text => ⟨.text text, []⟩
  | _ => built

mutual

def build : Node → Built
  | .scalar .sequence _ => .failing 1 .malformed
  | .scalar .mapping _ => .failing 1 .malformed
  | .scalar tag text => .ofScalar (scalarValue tag text)
  | .sequence .sequence items =>
    let built := buildItems items
    ⟨.list (built.map Built.value), built.flatMap Built.raised⟩
  | .sequence .mapping _ => .failing 1 .malformed
  | .sequence _ _ => .failing 0 .malformed
  | .mapping .mapping entries =>
    match buildEntries entries with
    | some entries => mappingOf (entries.merged ++ entries.own)
    | none => .failing 1 .malformed
  | .mapping .sequence _ => .failing 1 .malformed
  | .mapping _ _ => .failing 0 .malformed

def buildItems : List Node → List Built
  | [] => []
  | item :: items => build item :: buildItems items

def buildEntries : List (Node × Node) → Option Entries
  | [] => some ⟨[], []⟩
  | (key, value) :: rest => do
    if key.isMergeKey then
      let sources ← mergeSources value
      let entries ← buildEntries rest
      return { entries with merged := sources ++ entries.merged }
    else
      let entries ← buildEntries rest
      return { entries with own := ⟨(build key).asKey key, build value⟩ :: entries.own }

/-- The entries that a node gives when it is merged in: a mapping, or a sequence of mappings of
which earlier ones win. -/
def mergeSources : Node → Option (List BuiltEntry)
  | .mapping _ entries => (buildEntries entries).map fun entries => entries.merged ++ entries.own
  | .sequence _ items => mergeItems items
  | .scalar _ _ => none

def mergeItems : List Node → Option (List BuiltEntry)
  | [] => some []
  | .mapping _ entries :: items => do
    let entries ← buildEntries entries
    return (← mergeItems items) ++ entries.merged ++ entries.own
  | _ :: _ => none

end

/-- The failure nearest to the top, and of those the first. -/
def firstFailure : List Failure → Option Failure
  | [] => none
  | failure :: failures =>
    match firstFailure failures with
    | some other => if other.depth < failure.depth then some other else some failure
    | none => some failure

def Node.value (node : Node) : Except Error Value :=
  let built := build node
  match firstFailure built.failures with
  | some failure => .error failure.error
  | none => .ok built.value

def isAllowed (c : Char) : Bool :=
  let code := c.toNat
  c == '\t' || c == '\n' || c == '\r' || c == '\u0085' || 0x20 ≤ code && code ≤ 0x7e ||
    0xa0 ≤ code && code ≠ 0xfffe && code ≠ 0xffff

def read (text : List Char) : Except Error Value := do
  if !text.all isAllowed then throw .malformed
  (← Node.ofTokens (tokens text)).value

end RiskScan.Yaml
