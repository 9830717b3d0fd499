/-!
# Paths

A path is a list of names under an anchor, which says where it starts: at the current directory, at
the top of the file system, or, written with exactly two slashes, at a top of its own. Empty names
and single dots carry no meaning and are dropped, while a double dot stays, because what it means
depends on links. All operations here are lexical: they never look at a file system.
-/

namespace RiskScan

inductive Anchor where
  | relative
  | top
  | doubleTop
  deriving DecidableEq, Repr

def Anchor.shown : Anchor → String
  | .relative => ""
  | .top => "/"
  | .doubleTop => "//"

structure Path where
  anchor : Anchor := .relative
  names : List String := []
  deriving DecidableEq, Repr, Inhabited

namespace Path

def pieces : List Char → List (List Char)
  | [] => [[]]
  | c :: cs =>
    match pieces cs with
    | [] => [[c]]
    | piece :: rest => if c = '/' then [] :: piece :: rest else (c :: piece) :: rest

def isMeaningful (name : String) : Bool :=
  name != "" && name != "."

def anchorOf : List Char → Anchor
  | '/' :: '/' :: '/' :: _ => .top
  | '/' :: '/' :: _ => .doubleTop
  | '/' :: _ => .top
  | _ => .relative

def ofString (text : String) : Path :=
  { anchor := anchorOf text.toList
    names := ((pieces text.toList).map String.ofList).filter isMeaningful }

protected def toString (path : Path) : String :=
  match path.anchor, path.names with
  | .relative, [] => "."
  | anchor, names => anchor.shown ++ "/".intercalate names

def isAbsolute (path : Path) : Bool :=
  path.anchor != .relative

/-- A path as seen from another one; an absolute path is seen the same from everywhere. -/
def join (base path : Path) : Path :=
  if path.isAbsolute then path else { base with names := base.names ++ path.names }

def child (path : Path) (name : String) : Path :=
  { path with names := path.names ++ [name] }

/-- The path without its last name. The top is its own parent. -/
def parent (path : Path) : Path :=
  { path with names := path.names.dropLast }

/-- What follows `base` in a path that begins with it. -/
def relativeTo? (path base : Path) : Option Path :=
  if path.anchor = base.anchor ∧ base.names <+: path.names then
    some { names := path.names.drop base.names.length }
  else none

theorem relativeTo?_join (base path : Path) (h : path.anchor = .relative) :
    (base.join path).relativeTo? base = some path := by
  cases path
  simp only at h
  subst h
  simp [join, isAbsolute, relativeTo?]

/-- The path and everything above it, from the bottom up. -/
def ascent (path : Path) : List Path :=
  (List.range (path.names.length + 1)).reverse.map fun count =>
    { path with names := path.names.take count }

end Path

end RiskScan
