import RiskScan.Yaml.Error
/-!
# Tokens of a document

Indentation has become brackets: a block sequence or mapping has a token for its start and one for
its end. A key is marked by a token in front of it, even where the text only shows the colon after
it. A text that cannot be divided further ends with a token that says why.
-/

namespace RiskScan.Yaml

/-- A line that sets something for the document after it. -/
inductive Directive where
  | version (major : Nat)
  /-- What a tag handle stands for. -/
  | tag (handle address : String)
  | other
  deriving DecidableEq, Repr

inductive Token where
  | directive (directive : Directive)
  | documentStart
  | documentEnd
  | blockSequenceStart
  | blockMappingStart
  | blockEnd
  | flowSequenceStart
  | flowSequenceEnd
  | flowMappingStart
  | flowMappingEnd
  | blockEntry
  | flowEntry
  | key
  | value
  | alias (name : String)
  | anchor (name : String)
  /-- A tag, with the handle that its beginning is written as, if it has one. -/
  | tag (handle : Option String) (rest : String)
  | scalar (text : String) (isPlain : Bool)
  | streamEnd
  | broken (error : Error)
  deriving DecidableEq, Repr

end RiskScan.Yaml
