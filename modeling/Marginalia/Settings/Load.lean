import Marginalia.Path.Clean
import Marginalia.Settings.Decode
import Marginalia.Toml.Reader
import Marginalia.Workspace.Basic

/-!
# Finding and loading settings

Settings come from the file that is named or from the nearest configuration file: the directories
from the working directory up to the root are searched, and the first candidate that exists decides.
Without a file the defaults hold.
-/
namespace Marginalia

inductive LoadError where
  | missing (path : Text)
  | unreachable (path : Text) (trouble : Trouble)
  | unsearchable (path : Text) (trouble : Trouble)
  | malformed (path : Text)
  | mismatched (path : Text)
  | invalid (e : SettingError)
deriving DecidableEq, Repr

instance : Diagnosable LoadError where
  diagnose
    | .missing path =>
      { code := "CONFIG_NOT_FOUND"
        message := "config file " ++ Quoted.quote path ++ " does not exist"
        hint := "Create the file or pass a valid --config path"
        facts := [("path", .text path)] }
    | .unreachable path trouble =>
      { message := "checking config file " ++ Quoted.quote path ++ ": "
          ++ FileError.message ⟨"stat", [path], trouble⟩ }
    | .unsearchable path trouble =>
      { message := "checking for config file at " ++ Quoted.quote path ++ ": "
          ++ FileError.message ⟨"stat", [path], trouble⟩ }
    | .malformed path =>
      { code := "CONFIG_INVALID"
        message := "loading config from " ++ Quoted.quote path
        hint := "Fix TOML syntax in your config"
        facts := [("path", .text path)] }
    | .mismatched path =>
      { code := "CONFIG_INVALID"
        message := "decoding config from " ++ Quoted.quote path
        hint := "Fix config structure to match the solcco schema"
        facts := [("path", .text path)] }
    | .invalid e => diagnose e

namespace Settings

/-- The names of configuration files, the preferred one first. -/
def fileNames : List Text := ["solcco.toml", ".solcco.toml"]

/-- The paths at which a configuration file may stand in a directory, the preferred one first. -/
def candidatesIn (dir : Text) : List Text := fileNames.map fun name => Path.join [dir, name]

/-- The paths at which a configuration file may stand at a place or above it, the nearest first. -/
def candidatesFrom (place : Location) : List Text :=
  (List.range (place.length + 1)).flatMap fun k =>
    candidatesIn (Workspace.pathOf (place.take (place.length - k)))

/-- The paths at which a configuration file may stand, the nearest first. -/
def candidates (w : Workspace) : List Text := candidatesFrom w.here

/-- The first path at which something stands. Trouble on the way ends the search. -/
def firstStanding (stat : Text → Except Trouble Node) :
    List Text → Except LoadError (Option Text)
  | [] => .ok none
  | path :: rest =>
    match stat path with
    | .ok _ => .ok (some path)
    | .error .missing => firstStanding stat rest
    | .error t => .error (.unsearchable path t)

/-- The configuration file in a directory or the nearest one above it. The search ends at the root,
which is its own directory. -/
def findFrom (stat : Text → Except Trouble Node) (dir : Text) : Except LoadError (Option Text) :=
  match firstStanding stat (candidatesIn dir) with
  | .error e => .error e
  | .ok (some path) => .ok (some path)
  | .ok none =>
    if Path.directory dir = dir then .ok none else findFrom stat (Path.directory dir)
termination_by Path.rank dir
decreasing_by exact Path.rank_directory_lt ‹_›

def find (w : Workspace) : Except LoadError (Option Text) :=
  findFrom w.stat (Workspace.pathOf w.here)

/-- The configuration file to use: the one that is named, or the nearest. -/
def choose (w : Workspace) (path : Text) : Except LoadError (Option Text) :=
  if path.isEmpty then find w
  else
    match w.stat path with
    | .ok _ => .ok (some path)
    | .error .missing => .error (.missing path)
    | .error t => .error (.unreachable path t)

def table? (w : Workspace) (path : Text) : Option Toml.Table := do
  Toml.parse? (← Utf8.decode? (← (w.read path).toOption))

/-- The settings of the configuration file at a path from the root. -/
def loadFrom (knows : Text → Bool) (w : Workspace) (path : Text) : Except LoadError Settings := do
  let some table := table? w path | throw (.malformed path)
  let some s := ofTable? table | throw (.mismatched path)
  let s := { s with directory := Path.directory path }.withDefaults
  (s.check knows).mapError .invalid
  if Path.isAbsolute s.output then return s
  return { s with output := Path.join [s.directory, s.output] }

/-- The settings of a run. An empty path asks for the nearest configuration file. -/
def load (knows : Text → Bool) (w : Workspace) (path : Text) : Except LoadError Settings := do
  match ← choose w path with
  | none => return ({} : Settings).withDefaults
  | some chosen => loadFrom knows w (w.absolute chosen)

end Settings

end Marginalia
