import Marginalia.Diagnosis
import Marginalia.Glob.Files
import Marginalia.Language
import Marginalia.Text.Quoted
import Marginalia.Url

/-!
# From arguments to sources

An argument is an address, a pattern or a path. Addresses and paths stand for themselves; a pattern
stands for the files that it finds, in order, without those that are excluded. A source that is
named twice is taken once, at its first place.
-/
namespace Marginalia

inductive Origin where
  | file
  | url
deriving DecidableEq, Repr

/-- A source to read. The label names it in a document and picks its language. -/
structure Reference where
  origin : Origin
  location : Text
  label : Text
deriving DecidableEq, Repr

inductive ResolveError where
  | malformed (pattern : Text)
  | unexpandable (pattern : Text)
  | unmatched (pattern : Text)
  | missing (path : Text)
  | unreachable (path : Text) (trouble : Trouble)
  | directory (path : Text)
deriving DecidableEq, Repr

instance : Diagnosable ResolveError where
  diagnose
    | .malformed pattern =>
      { code := "INVALID_ARGS"
        message := "invalid glob pattern " ++ Quoted.quote pattern
        hint := "Check brackets and braces in the pattern"
        facts := [("pattern", .text pattern)] }
    | .unexpandable pattern =>
      { code := "READ_FAILED"
        message := "expanding glob " ++ Quoted.quote pattern ++ ": syntax error in pattern"
        facts := [("pattern", .text pattern)] }
    | .unmatched pattern =>
      { code := "INPUT_NOT_FOUND"
        message := "pattern " ++ Quoted.quote pattern ++ " matched no files"
        hint := "Check the pattern and the exclude list in your config"
        facts := [("pattern", .text pattern)] }
    | .missing path =>
      { code := "INPUT_NOT_FOUND"
        message := "input file " ++ Quoted.quote path ++ " does not exist"
        facts := [("path", .text path)] }
    | .unreachable path trouble =>
      { code := "READ_FAILED"
        message := "checking input file " ++ Quoted.quote path ++ ": "
          ++ FileError.message ⟨"stat", [path], trouble⟩
        facts := [("path", .text path)] }
    | .directory path =>
      { code := "INPUT_NOT_FOUND"
        message := "input " ++ Quoted.quote path ++ " is a directory"
        hint := "Pass a glob such as \"" ++ Path.join [path, "**", "*.sol"]
          ++ "\" to document a directory"
        facts := [("path", .text path)] }

/-- What arguments are held against: what paths lead to, which patterns are well formed, which files a
pattern finds, and for which paths it stands. -/
structure Terrain where
  stat : Text → Except Trouble Node
  isValid : Text → Bool
  files : Text → Except Glob.Malformed (List Text)
  stands : Text → Text → Bool

def Workspace.terrain (w : Workspace) : Terrain where
  stat := w.stat
  isValid := Glob.isValid
  files := Glob.files w
  stands := Glob.stands

namespace Reference

def isUrl (arg : Text) : Bool := Text.opens "http://" arg || Text.opens "https://" arg

/-- The reference to an address. -/
def ofUrl (url : Text) : Reference := { origin := .url, location := url, label := Url.fileName url }

/-- The reference to a file, by its clean path. -/
def ofPath (path : Text) : Reference :=
  let location := Path.clean path
  { origin := .file, location, label := Path.base location }

/-- Whether a file is left out when patterns are expanded. -/
def isExcluded (t : Terrain) (exclude : List Text) (path : Text) : Bool :=
  exclude.any fun pattern => t.stands pattern (Path.clean path)

def expandPattern (t : Terrain) (exclude : List Text) (pattern : Text) :
    Except ResolveError (List Text) :=
  if !t.isValid pattern then .error (.malformed pattern)
  else
    match t.files pattern with
    | .error _ => .error (.unexpandable pattern)
    | .ok found =>
      match found.filter fun path => !isExcluded t exclude path with
      | [] => .error (.unmatched pattern)
      | kept => .ok (kept.mergeSort Text.atMost)

def checkFile (t : Terrain) (path : Text) : Except ResolveError Unit :=
  match t.stat path with
  | .ok .directory => .error (.directory path)
  | .ok _ => .ok ()
  | .error .missing => .error (.missing path)
  | .error trouble => .error (.unreachable path trouble)

def expand (t : Terrain) (exclude : List Text) (arg : Text) :
    Except ResolveError (List Reference) :=
  if isUrl arg then .ok [ofUrl arg]
  else if Glob.isPattern arg then (expandPattern t exclude arg).map (·.map ofPath)
  else (checkFile t arg).map fun _ => [ofPath arg]

/-- Keeps the first of all references to one location. -/
def distinct (refs : List Reference) : List Reference :=
  refs.eraseDupsBy fun a b => a.location == b.location

/-- The sources that arguments stand for in a terrain. -/
def resolveIn (t : Terrain) (exclude args : List Text) : Except ResolveError (List Reference) := do
  return distinct (← args.mapM (expand t exclude)).flatten

def resolve (w : Workspace) (exclude args : List Text) : Except ResolveError (List Reference) :=
  resolveIn w.terrain exclude args

end Reference

end Marginalia
