/-!
# Faults

Every operation that can fail says why with a type of its own. Where failures of different
operations meet, as in the record of a file whose analysis failed, only the kind of the fault and
its message are kept.
-/

namespace RiskScan

inductive FaultKind where
  /-- A value of the right type that makes no sense. -/
  | value
  /-- A value of a wrong type. -/
  | type
  /-- A number too large for its purpose. -/
  | overflow
  /-- A position outside a sequence. -/
  | index
  /-- A name that is not known. -/
  | key
  /-- A failure of an analyzer itself. -/
  | runtime
  /-- A failure of the file system. -/
  | os
  /-- Console markup that is refused. -/
  | markup
  deriving DecidableEq, Repr

def FaultKind.label : FaultKind → String
  | .value => "ValueError"
  | .type => "TypeError"
  | .overflow => "OverflowError"
  | .index => "IndexError"
  | .key => "KeyError"
  | .runtime => "RuntimeError"
  | .os => "OSError"
  | .markup => "MarkupError"

structure Fault where
  kind : FaultKind
  message : String
  deriving DecidableEq, Repr

end RiskScan
