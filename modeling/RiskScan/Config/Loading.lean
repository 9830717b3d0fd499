import RiskScan.Config
import RiskScan.Console
import RiskScan.FileSystem
import RiskScan.Text.Utf8
import RiskScan.Yaml.Document
/-!
# Finding and loading settings

The settings of a project lie in a file of a fixed name, in the project's directory or in the
nearest one above it that has such a file. A file that cannot be read, or holds no settings, is
reported on the console, and every setting then has its default.
-/

namespace RiskScan.Config

def fileName : String := ".thoughtscan.yml"

/-- Settings, and what their loading printed. -/
structure Loaded where
  config : Config := {}
  output : Transcript := []

/-- The first of some paths at which there is something. -/
def firstPresent (fs : FileSystem) : List Path → Except Fault (Option Path)
  | [] => .ok none
  | path :: paths =>
    match fs.isPresent path with
    | .ok true => .ok (some path)
    | .ok false => firstPresent fs paths
    | .error error => .error (error.fault path)

/-- The settings file that holds for a directory. The way up is lexical. -/
def find (fs : FileSystem) (start : Path) : Except Fault (Option Path) :=
  firstPresent fs (start.ascent.map (·.child fileName))

/-- Why the octets of a file are no text. An incomplete character at the end of a file is noticed
after everything before it has been taken, so it is counted from its own start. -/
def decodeMessage (error : Text.Utf8.DecodeError) : String :=
  let position := if error.fault = .unexpectedEnd then 0 else error.position
  let place :=
    if error.length = 1 then
      "byte 0x" ++ String.ofList (Text.hexDigits 2 error.first) ++ " in position " ++
        toString position
    else "bytes in position " ++ toString position ++ "-" ++
      toString (position + error.length - 1)
  "'utf-8' codec can't decode " ++ place ++ ": " ++ error.fault.reason

/-- The settings in the octets of a file, or the message that says why there are none. -/
def ofOctets (octets : List UInt8) : Except String Config :=
  match Text.Utf8.decode (octets.map UInt8.toNat) with
  | .error error => .error (decodeMessage error)
  | .ok chars =>
    match Yaml.read (Text.unifyNewlines chars) with
    | .error error => .error error.message
    | .ok document => (ofDocument document).mapError SettingError.message

/-- The settings in a file that is there, or the message that says why there are none. -/
def ofFile (fs : FileSystem) (path : Path) : Except String Config :=
  match fs.octets path with
  | .error error => .error (error.describe path)
  | .ok octets => ofOctets octets

def loadWarning (path : Path) (message : String) : String :=
  "[yellow]Warning: Failed to load config from " ++ Markup.escape path.toString ++ ": " ++
    Markup.escape message ++ "[/yellow]"

/-- The settings in a file; a file that is not there leaves all of them at their defaults. -/
def load (fs : FileSystem) (path : Path) : Except Fault Loaded :=
  match fs.isPresent path with
  | .error error => .error (error.fault path)
  | .ok false => .ok {}
  | .ok true =>
    match ofFile fs path with
    | .ok config => .ok { config }
    | .error message => .ok { output := [loadWarning path message] }

def loadNear (fs : FileSystem) (start : Path) : Except Fault Loaded := do
  match ← find fs start with
  | some path => load fs path
  | none => return {}

end RiskScan.Config
