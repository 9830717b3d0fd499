import RiskScan.Pattern
/-!
# Lexical context of a file

Before a file is analysed, coarse structural hints are read off its text: what it imports, declares
and calls. This is a matter of patterns alone, without regard to scope, strings or comments. Every
list holds the matching texts; imports are listed one form after the other, and hooks once each.
-/

namespace RiskScan

open Pattern

structure CodeContext where
  imports : List String
  exports : List String
  functions : List String
  classes : List String
  hooks : List String
  eventListeners : List String
  asyncOperations : List String
  stateManagement : List String
  errorHandling : List String
  deriving DecidableEq, Repr

namespace CodeContext

def quotes : List Char := ['\'', '"']

def quote : Pattern := .one (.only quotes)

/-- The inside of a quoted text, of at least some length. -/
def unquoted (least : Nat) : Pattern := .run (.except quotes) least none

/-- The three forms of import: with names, for its effects only, and by a call. -/
def importForms : List Pattern :=
  [all [literal "import", someBlanks, .lazyRun (.except [';']), literal "from", someBlanks, quote,
      unquoted 0, quote],
    all [literal "import", someBlanks, quote, unquoted 1, quote],
    all [literal "require(", blanks, quote, unquoted 1, quote, blanks, literal ")"]]

def exportForm : Pattern :=
  all [literal "export", someBlanks, optional (all [literal "default", someBlanks]),
    optional (all [literal "async", someBlanks]),
    anyOf [all [literal "function", optional (literal "*")], literal "class", literal "const",
      literal "let", literal "var", literal "interface", literal "type"],
    someBlanks, someWordChars]

def arrow : Pattern := .seq blanks (literal "=>")

def functionForm : Pattern :=
  anyOf [all [literal "function", someBlanks, someWordChars],
    all [literal "const", someBlanks, someWordChars, blanks, literal "=", blanks,
      optional (all [literal "async", someBlanks]),
      anyOf [all [literal "(", .run (.except [')']) 0 none, literal ")", arrow],
        .seq someWordChars arrow, literal "function"]]]

def classForm : Pattern :=
  all [.wordBoundary, literal "class", someBlanks, someWordChars]

def hookForm : Pattern :=
  all [.wordBoundary, literal "use", .one (.range 'A' 'Z'), wordChars]

def eventListenerForm : Pattern :=
  all [anyOf [literal "addEventListener", literal "removeEventListener", literal ".on",
      literal ".subscribe", literal ".unsubscribe"],
    blanks, literal "("]

def asyncForm : Pattern :=
  anyOf [all [literal "async", someBlanks, literal "function"], .seq (literal "await") someBlanks,
    literal ".then(", literal ".catch(", literal "Promise.", literal "setTimeout",
    literal "setInterval"]

def stateForm : Pattern :=
  anyOf [literal "useState", literal "useReducer", literal "setState", literal "this.state",
    literal "dispatch", literal "store.", literal "global."]

def errorForm : Pattern :=
  anyOf [all [literal "try", blanks, literal "\x7b"], all [literal "catch", blanks, literal "("],
    .seq (literal "throw") someBlanks, literal "Error(", literal "console.error"]

def distinct (texts : List String) : List String :=
  texts.foldl (fun kept text => if kept.contains text then kept else kept ++ [text]) []

def stripped (text : String) : String :=
  String.ofList (Text.strip text.toList)

def ofContent (content : String) : CodeContext :=
  { imports := importForms.flatMap fun form => (form.find content).map stripped
    exports := exportForm.find content
    functions := functionForm.find content
    classes := classForm.find content
    hooks := distinct (hookForm.find content)
    eventListeners := eventListenerForm.find content
    asyncOperations := asyncForm.find content
    stateManagement := stateForm.find content
    errorHandling := errorForm.find content }

def hasAsyncOperations (context : CodeContext) : Bool := !context.asyncOperations.isEmpty

def hasStateManagement (context : CodeContext) : Bool := !context.stateManagement.isEmpty

def hasErrorHandling (context : CodeContext) : Bool := !context.errorHandling.isEmpty

end CodeContext

end RiskScan
