import RiskScan.FileSystem
/-!
# Making directories

A directory can only be made inside one that exists. Making all the directories on a path goes up
until one of them can be made, and from there down again; a directory that is already there is left
alone.
-/

namespace RiskScan.FileSystem

def makeDirectory (fs : FileSystem) (path : Path) : Except AccessError FileSystem := do
  if hasNul path then throw .embeddedNul
  match path.names.getLast? with
  | none => throw .alreadyPresent
  | some name =>
    match ← fs.follow mostLinks [] path.names.dropLast with
    | .vacant _ => throw .notFound
    | .occupied location (.directory entries) =>
      if name = ".." then throw .alreadyPresent
      else if longestName < name.utf8ByteSize then throw .nameTooLong
      else if (Inode.lookup? name entries).isSome then throw .alreadyPresent
      else return { fs with top := Inode.putAt (.directory []) (location ++ [name]) fs.top }
    | .occupied _ _ => throw .notDirectory

/-- An error of making a directory, which does not matter if there is one already. -/
def toleratePresent (fs : FileSystem) (path : Path) (error : AccessError) :
    Except (AccessError × Path) FileSystem :=
  if error = .embeddedNul then .error (error, path)
  else
    match fs.hasDirectory path with
    | .ok true => .ok fs
    | .ok false => .error (error, path)
    | .error statError => .error (statError, path)

/-- Makes a directory and whatever lies above it, where the path has `depth` names. The error comes
with the path at which it arose. -/
def makeDirectoriesFrom (fs : FileSystem) :
    (depth : Nat) → (path : Path) → Except (AccessError × Path) FileSystem
  | 0, path =>
    match fs.makeDirectory path with
    | .ok fs => .ok fs
    | .error error => fs.toleratePresent path error
  | depth + 1, path =>
    match fs.makeDirectory path with
    | .ok fs => .ok fs
    | .error .notFound =>
      match makeDirectoriesFrom fs depth path.parent with
      | .error failure => .error failure
      | .ok fs =>
        match fs.makeDirectory path with
        | .ok fs => .ok fs
        | .error .notFound => .error (.notFound, path)
        | .error error => fs.toleratePresent path error
    | .error error => fs.toleratePresent path error

def makeDirectories (fs : FileSystem) (path : Path) : Except (AccessError × Path) FileSystem :=
  fs.makeDirectoriesFrom path.names.length path

end RiskScan.FileSystem
