import RiskScan.Path
import RiskScan.Fault
import RiskScan.Text.Quoted
/-!
# File systems

A file system is a tree of files, directories and symbolic links, together with the places at which
access fails. A path is followed one name at a time; a double dot goes back to the directory that
was really entered, and a link is replaced by its target. Only a limited number of links is
followed, so following always ends.
-/

namespace RiskScan

/-- Why an access failed. -/
inductive AccessError where
  | notFound
  | alreadyPresent
  | notDirectory
  | isDirectory
  | nameTooLong
  | tooManyLinks
  /-- A failure that a device reports in its own words. -/
  | reported (message : String)
  /-- A name that no file can have. -/
  | embeddedNul
  deriving DecidableEq, Repr

namespace AccessError

def message : AccessError → String
  | .notFound => "No such file or directory"
  | .alreadyPresent => "File exists"
  | .notDirectory => "Not a directory"
  | .isDirectory => "Is a directory"
  | .nameTooLong => "File name too long"
  | .tooManyLinks => "Too many levels of symbolic links"
  | .reported message => message
  | .embeddedNul => "embedded null byte"

def number? : AccessError → Option Nat
  | .notFound => some 2
  | .alreadyPresent => some 17
  | .notDirectory => some 20
  | .isDirectory => some 21
  | .nameTooLong => some 36
  | .tooManyLinks => some 40
  | .reported _ => none
  | .embeddedNul => none

/-- The message of a failure that stops what was being done. -/
def describe (error : AccessError) (path : Path) : String :=
  match error.number? with
  | some number =>
    "[Errno " ++ toString number ++ "] " ++ error.message ++ ": " ++ Text.quoted path.toString
  | none => error.message

def kind : AccessError → FaultKind
  | .embeddedNul => .value
  | _ => .os

def fault (error : AccessError) (path : Path) : Fault :=
  ⟨error.kind, error.describe path⟩

/-- Whether the failure only says that there is nothing at the path. -/
def meansAbsent : AccessError → Bool
  | .notFound | .notDirectory | .tooManyLinks | .embeddedNul => true
  | _ => false

end AccessError

inductive Inode where
  | file (octets : List UInt8)
  | directory (entries : List (String × Inode))
  | link (target : Path)

instance : Inhabited Inode := ⟨.directory []⟩

/-- An operation that can be made to fail. -/
inductive Access where
  | scan
  | read
  /-- Opening for writing. -/
  | write
  deriving DecidableEq, Repr

structure FileSystem where
  /-- The directory at the top. -/
  top : List (String × Inode) := []
  /-- The accesses that fail, each at the path as it is written. -/
  failing : List (Access × Path × AccessError) := []
  /-- Where writing breaks off, at the path as it is written: after so many octets, with these words
  of the device. -/
  interrupted : List (Path × Nat × String) := []

/-- The place of something in the tree: the names that lead to it from the top without links. -/
abbrev Location := List String

namespace Inode

def lookup? (name : String) : List (String × Inode) → Option Inode
  | [] => none
  | (candidate, inode) :: entries => if candidate = name then some inode else lookup? name entries

def at? : (location : Location) → (entries : List (String × Inode)) → Option Inode
  | [], entries => some (.directory entries)
  | name :: rest, entries =>
    match lookup? name entries with
    | some (.directory inner) => at? rest inner
    | some inode => if rest.isEmpty then some inode else none
    | none => none

/-- Puts an entry into a directory, in the place of an entry of that name if there is one. -/
def put (name : String) (inode : Inode) : List (String × Inode) → List (String × Inode)
  | [] => [(name, inode)]
  | (candidate, old) :: entries =>
    if candidate = name then (name, inode) :: entries
    else (candidate, old) :: put name inode entries

theorem lookup?_put (name other : String) (inode : Inode) (entries : List (String × Inode)) :
    lookup? other (put name inode entries) =
      if name = other then some inode else lookup? other entries := by
  induction entries with
  | nil => simp [put, lookup?]
  | cons entry entries ih =>
    obtain ⟨candidate, old⟩ := entry
    by_cases heq : candidate = name
    · subst heq
      by_cases hother : candidate = other <;> simp [put, lookup?, hother]
    · by_cases hother : candidate = other
      · subst hother
        simp [put, lookup?, heq, Ne.symm heq]
      · simp [put, lookup?, heq, hother, ih]

def putAt (inode : Inode) : Location → List (String × Inode) → List (String × Inode)
  | [], entries => entries
  | [name], entries => put name inode entries
  | name :: rest, entries =>
    match lookup? name entries with
    | some (.directory inner) => put name (.directory (putAt inode rest inner)) entries
    | _ => entries

end Inode

namespace FileSystem

/-- The most octets a name may have. -/
def longestName : Nat := 255

/-- The most links that are followed on the way to one file. -/
def mostLinks : Nat := 40

/-- Where a path leads. -/
inductive Place where
  | occupied (location : Location) (inode : Inode)
  /-- There is a directory, but nothing of the last name in it. -/
  | vacant (location : Location)

def inodeAt? (fs : FileSystem) (location : Location) : Option Inode :=
  Inode.at? location fs.top

/-- Follows some names from a directory as far as there is no link, and goes on with `onLink` at the
first one: it is given the directory and the names that take the place of the link. -/
def followNames (fs : FileSystem) (onLink : Location → List String → Except AccessError Place) :
    (location : Location) → (names : List String) → Except AccessError Place
  | location, [] =>
    match fs.inodeAt? location with
    | some inode => .ok (.occupied location inode)
    | none => .error .notFound
  | location, name :: rest =>
    match fs.inodeAt? location with
    | some (.directory entries) =>
      if name = ".." then followNames fs onLink location.dropLast rest
      else if longestName < name.utf8ByteSize then .error .nameTooLong
      else
        match Inode.lookup? name entries with
        | some (.link target) =>
          onLink (if target.isAbsolute then [] else location) (target.names ++ rest)
        | some _ => followNames fs onLink (location ++ [name]) rest
        | none => if rest.isEmpty then .ok (.vacant (location ++ [name])) else .error .notFound
    | some _ => .error .notDirectory
    | none => .error .notFound

def follow (fs : FileSystem) : (links : Nat) → Location → List String → Except AccessError Place
  | 0 => fs.followNames fun _ _ => .error .tooManyLinks
  | links + 1 => fs.followNames (fs.follow links)

def hasNul (path : Path) : Bool :=
  path.names.any fun name => name.toList.contains '\x00'

def place (fs : FileSystem) (path : Path) : Except AccessError Place :=
  if hasNul path then .error .embeddedNul else fs.follow mostLinks [] path.names

def inode (fs : FileSystem) (path : Path) : Except AccessError Inode := do
  match ← fs.place path with
  | .occupied _ inode => return inode
  | .vacant _ => throw .notFound

/-- What an access to a path gives, unless it is made to fail. -/
def guarded {α : Type} (fs : FileSystem) (access : Access) (path : Path)
    (result : Except AccessError α) : Except AccessError α :=
  match fs.failing.find? fun (failing, place, _) => failing = access ∧ place = path with
  | some (_, _, error) => .error error
  | none => result

def isDirectory (fs : FileSystem) (path : Path) : Except AccessError Bool := do
  match ← fs.inode path with
  | .directory _ => return true
  | _ => return false

/-- Whether there is anything at a path. A name that is too long is an error of its own. -/
def isPresent (fs : FileSystem) (path : Path) : Except AccessError Bool :=
  match fs.inode path with
  | .ok _ => .ok true
  | .error error => if error.meansAbsent then .ok false else .error error

/-- Whether a path leads to a directory. A name that is too long is an error of its own. -/
def hasDirectory (fs : FileSystem) (path : Path) : Except AccessError Bool :=
  match fs.isDirectory path with
  | .ok answer => .ok answer
  | .error error => if error.meansAbsent then .ok false else .error error

/-- The entries of a directory, in the order of their names. -/
def list (fs : FileSystem) (path : Path) : Except AccessError (List (String × Inode)) :=
  fs.guarded .scan path <| do
    match ← fs.inode path with
    | .directory entries => return entries.mergeSort fun first second => first.1 ≤ second.1
    | _ => throw .notDirectory

def octets (fs : FileSystem) (path : Path) : Except AccessError (List UInt8) := do
  match ← fs.inode path with
  | .file octets => return octets
  | .directory _ => throw .isDirectory
  | .link _ => throw .tooManyLinks

def read (fs : FileSystem) (path : Path) : Except AccessError (List UInt8) :=
  fs.guarded .read path (fs.octets path)

/-- The place of a file that is opened for writing. It is created if there is nothing at the
path. -/
def openForWriting (fs : FileSystem) (path : Path) : Except AccessError Location :=
  fs.guarded .write path <| do
    match ← fs.place path with
    | .occupied _ (.directory _) => throw .isDirectory
    | .occupied location _ | .vacant location => return location

/-- The number of octets after which writing some of them breaks off, or closing the file after all
of them. -/
def interruption? (fs : FileSystem) (path : Path) (octets : List UInt8) : Option (Nat × String) :=
  (fs.interrupted.find? fun (place, count, _) => place = path ∧ count ≤ octets.length).map (·.2)

def putFile (fs : FileSystem) (location : Location) (octets : List UInt8) : FileSystem :=
  { fs with top := Inode.putAt (.file octets) location fs.top }

/-- What an attempt to write leaves, and the error that has ended it. -/
structure Attempt where
  fs : FileSystem
  error? : Option AccessError

/-- Tries to write a file. What it held before is lost once it has been opened. -/
def attemptWrite (fs : FileSystem) (path : Path) (octets : List UInt8) : Attempt :=
  match fs.openForWriting path with
  | .error error => ⟨fs, some error⟩
  | .ok location =>
    match fs.interruption? path octets with
    | some (count, message) => ⟨fs.putFile location (octets.take count), some (.reported message)⟩
    | none => ⟨fs.putFile location octets, none⟩

def write (fs : FileSystem) (path : Path) (octets : List UInt8) : Except AccessError FileSystem :=
  match fs.attemptWrite path octets with
  | ⟨_, some error⟩ => .error error
  | ⟨after, none⟩ => .ok after

def makeLink (fs : FileSystem) (path target : Path) : Except AccessError FileSystem := do
  match ← fs.place path with
  | .occupied _ _ => throw .alreadyPresent
  | .vacant location => return { fs with top := Inode.putAt (.link target) location fs.top }

end FileSystem

end RiskScan
