import RiskScan.Console.Markup
import RiskScan.Console.Style
/-!
# What a console shows

A transcript lists the markup of every print in order. Each print ends its line.

Styles may be open when a print ends, but a closing tag has to have something to close: `[/]` closes
the style that was opened last, and a closing tag with a name the last one of that name. A print
without it is refused, which is a fault of whoever prints. Two prints are checked for it: the error
of settings that cannot be saved, which is not escaped, and the warning of a file that is skipped,
where two escaped texts can form a tag together. All others are taken to be accepted.
-/

namespace RiskScan

namespace Markup

/-- A tag that is not literal. -/
structure Tag where
  /-- Where it begins, behind the backslashes before it. -/
  position : Nat
  body : List Char
  deriving DecidableEq, Repr

/-- The tags in some markup that begins at a position, after a number of backslashes. -/
def tagsFrom (position pending : Nat) (markup : List Char) : List Tag :=
  match markup with
  | [] => []
  | '\\' :: rest => tagsFrom (position + 1) (pending + 1) rest
  | '[' :: rest =>
    match h : tag? rest with
    | some (body, after) =>
      have := length_of_tag? h
      (if pending % 2 = 1 then [] else [⟨position, body⟩]) ++
        tagsFrom (position + body.length + 2) 0 after
    | none => tagsFrom (position + 1) 0 rest
  | _ :: rest => tagsFrom (position + 1) 0 rest
termination_by markup.length

namespace Tag

/-- What stands before the parameters of a tag. -/
def name (tag : Tag) : List Char :=
  tag.body.takeWhile (· != '=')

def unmatched (position : Nat) (shown : List Char) (reason : String) : Fault where
  kind := .markup
  message := "closing tag '[" ++ String.ofList shown ++ "]' at position " ++ toString position ++
    " " ++ reason

/-- The styles that are open after a tag, the last one first. Parameters do not matter. -/
def after (opened : List String) (tag : Tag) : Except Fault (List String) :=
  match tag.name with
  | '/' :: rest =>
    if (Text.strip rest).isEmpty then
      match opened with
      | [] => .error (unmatched tag.position ['/'] "has nothing to close")
      | _ :: others => .ok others
    else do
      let closed ← Console.canonicalName (String.ofList (Text.strip rest))
      if opened.contains closed then return opened.erase closed
      else throw (unmatched tag.position tag.body "doesn't match any open tag")
  | name => do return (← Console.canonicalName (String.ofList name)) :: opened

end Tag

/-- The styles that are open at the end of some markup, unless it is refused. -/
def openedBy (markup : String) : Except Fault (List String) :=
  (tagsFrom 0 0 markup.toList).foldlM Tag.after []

/-- Why some markup is refused, if it is. -/
def refusal? (markup : String) : Option Fault :=
  match openedBy markup with
  | .ok _ => none
  | .error fault => some fault

end Markup

/-- The markup printed so far, one entry for each print. -/
abbrev Transcript := List String

namespace Transcript

def printed (markup : String) : String :=
  Markup.plain markup ++ "\n"

def text (transcript : Transcript) : String :=
  String.join (transcript.map printed)

/-- Why the first print that is refused is refused, if one is. -/
def refusal? (transcript : Transcript) : Option Fault :=
  transcript.findSome? Markup.refusal?

end Transcript

end RiskScan
