import RiskScan.Signature
/-!
# The built-in signatures

Chance in control flow, getters that hand out internal state, asynchronous work that nobody awaits,
cascades of published events, and writes into the global window object.
-/

namespace RiskScan.Signature

open Pattern

/-- A call of the random source inside a condition, or compared with something. -/
def randomControlFlow : Signature :=
  { name := "RANDOM_CONTROL_FLOW"
    pattern := .either
      (all [.wordBoundary, literal "if", blanks, literal "(", .run (.except [')']) 0 none,
        literal "Math.random("])
      (all [literal "Math.random()", blanks, .one (.only ['<', '>']), optional (literal "=")])
    severity := .critical
    description := "Non-deterministic control flow detected"
    reasoning := "Math.random() in control flow creates unpredictable execution paths " ++
      "that can be exploited for collapse vectors"
    confidence := .float 0.9
    mitigations := ["Inject a seeded random source so branches are reproducible in tests",
      "Move randomised decisions out of security-relevant control flow"] }

/-- A getter whose body directly returns a field or the module state. -/
def mutableGetterExposure : Signature :=
  { name := "MUTABLE_GETTER_EXPOSURE"
    pattern := all [.wordBoundary, literal "get", .either (.seq someBlanks someWordChars) wordChars,
      blanks, literal "()", .run (.except ['{', '}', ';']) 0 (some 200), literal "\x7b", blanks,
      literal "return", someBlanks, .either (literal "this.") (literal "STATE")]
    severity := .high
    description := "Getters exposing mutable state references"
    reasoning := "Getters returning direct references to mutable state allow external manipulation"
    confidence := .float 0.8
    evidence := "Found \x7bcount\x7d potential violations in \x7bfile\x7d"
    mitigations := ["Return a copy or a frozen view of internal state"] }

/-- The word `async`, then an assignment on the same line, and no `await` after it. -/
def asyncWithoutAwait : Signature :=
  { name := "ASYNC_WITHOUT_AWAIT"
    pattern := all [.wordBoundary, literal "async", .wordBoundary,
      .run (.except ['\n', '=']) 0 none, literal "=",
      .unless (all [restOfLine, .wordBoundary, literal "await", .wordBoundary]), restOfLine]
    severity := .medium
    description := "Async operations without proper await handling"
    reasoning :=
      "Async operations without await can lead to race conditions and state corruption"
    confidence := .float 0.7
    mitigations := ["Await the promise or return it to the caller"] }

/-- Two publishing calls with at most `window` line ends between them. -/
def eventCascade (window : Nat) : Signature :=
  { name := "EVENT_CASCADE_RISK"
    pattern := all [literal ".publish(", restOfLine,
      .lazyUpTo window (.seq (literal "\n") restOfLine), literal ".publish("]
    severity := .critical
    description := "Potential event publishing cascade detected"
    reasoning := "Rapid event cascades can overwhelm the system and create collapse conditions"
    confidence := .float 0.8
    evidence := "Found \x7bcount\x7d cascade patterns in \x7bfile\x7d"
    mitigations := ["Batch or debounce related events into a single publish"] }

/-- A key in square brackets, which may hold one level of brackets and no line end. -/
def windowKey : Pattern :=
  all [literal "window[",
    .many (.either (.one (.except ['[', ']', '\n']))
      (all [literal "[", .run (.except ['[', ']', '\n']) 0 none, literal "]"])),
    literal "]"]

/-- An assignment to an entry of the window object, unless the value is `null`. -/
def memoryPollution : Signature :=
  { name := "MEMORY_POLLUTION"
    pattern := all [windowKey, blanks, literal "=", .unless (literal "="),
      .unless (all [blanks, literal "null", .wordBoundary]), restOfLine]
    severity := .high
    description := "Global scope pollution detected"
    reasoning := "Direct window object manipulation can lead to memory leaks and " ++
      "global state pollution"
    confidence := .float 0.75
    evidence := "Found \x7bcount\x7d global assignments in \x7bfile\x7d"
    mitigations := ["Keep shared values in a module scope or an explicit store"] }

/-- Repetitions cannot be counted beyond this number. -/
def maxWindow : Nat := 4294967294

inductive WindowError where
  | tooLarge
  /-- The window cannot even be written into the pattern. -/
  | text (error : NumberError)
  deriving DecidableEq, Repr

def WindowError.fault : WindowError → Fault
  | .tooLarge => ⟨.overflow, "the repetition number is too large"⟩
  | .text error => error.fault

/-- What is wrong with a window that cannot be counted. -/
def WindowError.ofWindow (window : Nat) : WindowError :=
  match (Value.int window).toText with
  | .ok _ => .tooLarge
  | .error error => .text error

def eventCascade? (window : Nat) : Except WindowError Signature :=
  if window ≤ maxWindow then .ok (eventCascade window) else .error (.ofWindow window)

end RiskScan.Signature
