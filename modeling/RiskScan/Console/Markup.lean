/-!
# Console markup

A console line is written with style tags in square brackets. A tag begins with a lower-case letter
or one of `#`, `/`, `@` after the bracket and runs to the next closing bracket, with no other
opening bracket between them. Backslashes before a tag are read in pairs; an odd one left over makes
the tag literal text. The consoles of this library have no styles, so a tag that is not literal
prints nothing.

Text from elsewhere is escaped before it is put between tags.
-/

namespace RiskScan.Markup

def opensTag (c : Char) : Bool :=
  c.isLower || c == '#' || c == '/' || c == '@'

/-- The body of the tag whose opening bracket has just been read, and what follows the tag. -/
def tag? (rest : List Char) : Option (List Char × List Char) :=
  if (rest.head?.map opensTag).getD false then
    let inside := fun c => c != '[' && c != ']'
    match rest.dropWhile inside with
    | ']' :: after => some (rest.takeWhile inside, after)
    | _ => none
  else none

theorem length_of_tag? {rest body after : List Char} (h : tag? rest = some (body, after)) :
    after.length < rest.length := by
  unfold tag? at h
  split at h
  · dsimp only at h
    split at h
    · rename_i found heq
      have hle := (List.dropWhile_suffix (fun c => c != '[' && c != ']') (l := rest)).length_le
      simp only [Option.some.injEq, Prod.mk.injEq] at h
      rw [heq, h.2] at hle
      exact hle
    · simp at h
  · simp at h

def backslashes (count : Nat) : List Char :=
  List.replicate count '\\'

/-- The text that prints for some markup, after a number of backslashes still to be accounted
for. -/
def plainFrom (pending : Nat) (markup : List Char) : List Char :=
  match markup with
  | [] => backslashes pending
  | '\\' :: rest => plainFrom (pending + 1) rest
  | '[' :: rest =>
    match h : tag? rest with
    | some (body, after) =>
      have := length_of_tag? h
      backslashes (pending / 2) ++ (if pending % 2 = 1 then '[' :: body ++ [']'] else []) ++
        plainFrom 0 after
    | none => backslashes (pending - 1) ++ '[' :: plainFrom 0 rest
  | c :: rest => backslashes pending ++ c :: plainFrom 0 rest
termination_by markup.length

def plain (markup : String) : String :=
  String.ofList (plainFrom 0 markup.toList)

def escapeFrom (pending : Nat) (text : List Char) : List Char :=
  match text with
  | [] => backslashes pending
  | '\\' :: rest => escapeFrom (pending + 1) rest
  | '[' :: rest =>
    match h : tag? rest with
    | some (body, after) =>
      have := length_of_tag? h
      backslashes (2 * pending + 1) ++ '[' :: body ++ ']' :: escapeFrom 0 after
    | none => backslashes pending ++ '[' :: escapeFrom 0 rest
  | c :: rest => backslashes pending ++ c :: escapeFrom 0 rest
termination_by text.length

/-- Whether a text ends in exactly one backslash. -/
def endsInLoneBackslash (text : List Char) : Bool :=
  match text.reverse with
  | '\\' :: '\\' :: _ => false
  | '\\' :: _ => true
  | _ => false

/-- Markup that prints as the given text when it stands alone. -/
def escape (text : String) : String :=
  let escaped := escapeFrom 0 text.toList
  String.ofList (if endsInLoneBackslash escaped then escaped ++ ['\\'] else escaped)

end RiskScan.Markup
