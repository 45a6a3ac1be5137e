import Marginalia.Diagnosis
import Marginalia.Workspace.Basic

/-!
# Writing files

A file is written in one piece: the content goes into a temporary file beside the destination, which
then takes the destination's place. Any step may fail, be it that something is in its way or that the
storage refuses it. The temporary file is removed in the end whatever happened, so that what stood at
a destination that was not reached is still there. Directories that were made on the way stay.
-/
namespace Marginalia

inductive WriteStep where
  | makeDirectories
  | create
  | fill
  | close
  | setMode
  | replace
deriving DecidableEq, Repr

def WriteStep.work : WriteStep → Text
  | .makeDirectories => "creating output directory"
  | .create => "creating temporary file"
  | .fill => "writing temporary file"
  | .close => "closing temporary file"
  | .setMode => "setting file mode"
  | .replace => "replacing destination file"

def WriteStep.operation : WriteStep → Text
  | .makeDirectories => "mkdir"
  | .create => "open"
  | .fill => "write"
  | .close => "close"
  | .setMode => "chmod"
  | .replace => "rename"

namespace Workspace

def temporaryName (k : Nat) : Text := ".solcco-" ++ Text.ofNat k ++ ".tmp"

end Workspace

/-- What a storage does of its own accord while a file is written. -/
structure Storage where
  /-- Why a step with some operands is refused, if it is. -/
  refuse : WriteStep → List Text → Option Trouble := fun _ _ => none
  /-- The number of bytes that are stored of a content whose rest is refused. -/
  stored : Nat := 0
  /-- The numbers that are drawn for a temporary file. -/
  draw : Nat → Nat := id

/-- A file that was not written: the step that failed, the path it was about and the failure. -/
structure WriteError where
  step : WriteStep
  path : Text
  cause : FileError
deriving DecidableEq, Repr

instance : Diagnosable WriteError where
  diagnose e :=
    { code := "WRITE_FAILED"
      message := e.step.work ++ ": " ++ e.cause.message
      facts := [("path", .text e.path)] }

namespace Workspace

/-- The directory and the name under which a path would make something new. -/
def slot (w : Workspace) (path : Text) : Except Trouble (Location × Text) := do
  checkPath path
  let names := Path.names path
  match names.getLast? with
  | none => throw .taken
  | some name =>
    let place ← w.walk (w.start path) names.dropLast
    w.lookInto place
    if name = Path.here ∨ name = Path.up then throw .taken
    else if name.byteLength > maxNameLength then throw .nameTooLong
    else return (place, name)

/-- Makes a directory where nothing stands. -/
def makeDirectory (w : Workspace) (path : Text) : Except Trouble Workspace := do
  let (place, name) ← w.slot path
  if (w.node? (place ++ [name])).isSome then throw .taken
  return w.put (place ++ [name]) .directory

/-- Work that changes a workspace and may fail half-way. -/
abbrev Work (ε : Type) := ExceptT ε (StateM Workspace)

/-- Does the work of a step unless the storage refuses it. -/
def attempt {α : Type} (s : Storage) (step : WriteStep) (operands : List Text)
    (work : Workspace → Except Trouble (α × Workspace)) : Work FileError α := do
  match s.refuse step operands with
  | some t => throw ⟨step.operation, operands, t⟩
  | none =>
    match work (← get) with
    | .ok (v, w) => do set w; return v
    | .error t => throw ⟨step.operation, operands, t⟩

/-- Makes sure that a path leads to a directory, given that its parent does. -/
def ensureDirectory (s : Storage) (path : Text) : Work FileError Unit := do
  match (← get).stat path with
  | .ok .directory => return
  | .ok _ => throw ⟨"mkdir", [path], .notDirectory⟩
  | .error _ => attempt s .makeDirectories [path] fun w => return ((), ← w.makeDirectory path)

/-- Makes sure that a clean path leads to a directory. -/
def ensureDirectories (s : Storage) (path : Text) : Work FileError Unit :=
  (Path.ancestry path).forM (ensureDirectory s)

def pathIn (directory name : Text) : Text :=
  if directory.getLast? = some '/' then directory ++ name else directory ++ "/" ++ name

/-- The number of names that are drawn before a temporary file is given up. -/
def maxDraws : Nat := 10000

def isFree (w : Workspace) (directory name : Text) : Bool :=
  (w.locate (pathIn directory name)).toOption.isNone

/-- The first of the drawn names, from one on, that is free. -/
def firstFree? (isFree : Text → Bool) (draw : Nat → Nat) : Nat → Nat → Option Text
  | 0, _ => none
  | draws + 1, k =>
    let name := temporaryName (draw k)
    if isFree name then some name else firstFree? isFree draw draws (k + 1)

/-- Creates an empty file beside a path, and gives its path and its place. -/
def createTemporary (s : Storage) (path : Text) : Work FileError (Text × Location) := do
  let directory := Path.directory path
  match firstFree? ((← get).isFree directory) s.draw maxDraws 0 with
  | none => throw ⟨"createtemp", [pathIn directory ".solcco-*.tmp"], .exhausted⟩
  | some name =>
    let temporary := pathIn directory name
    attempt s .create [temporary] fun w => do
      let (place, name) ← w.slot temporary
      return ((temporary, place ++ [name]), w.put (place ++ [name]) (.file []))

/-- Moves what stands at a place onto a path that is not a directory. -/
def rename (w : Workspace) (source : Location) (path : Text) : Except Trouble Workspace :=
  if w.isDirectory path then .error .taken
  else do
    let (place, name) ← w.slot path
    match w.node? source with
    | none => throw .missing
    | some n => return (w.erase source).put (place ++ [name]) n

/-- Removes what a path leads to, if it is no directory. -/
def remove (w : Workspace) (path : Text) : Workspace :=
  match w.locate path with
  | .ok place => if w.node? place = some .directory then w else w.erase place
  | .error _ => w

/-- Work that is done in a step of writing a path. -/
def during {α : Type} (step : WriteStep) (path : Text) (work : Work FileError α) :
    Work WriteError α :=
  work.adapt fun cause => { step, path, cause }

/-- Writes a file through a temporary file beside it, which is removed in the end. After a success
there is nothing left to remove, unless the temporary file had the name of the destination. -/
def write (path : Text) (content : Bytes) (s : Storage := {}) : Work WriteError Unit := do
  let directory := Path.directory path
  during .makeDirectories directory (ensureDirectories s directory)
  let (temporary, source) ← during .create path (createTemporary s path)
  try
    modify (·.put source (.file (content.take s.stored)))
    during .fill path <| attempt s .fill [temporary] fun w =>
      return ((), w.put source (.file content))
    during .close path <| attempt s .close [temporary] fun w => return ((), w)
    during .setMode path <| attempt s .setMode [temporary] fun w => return ((), w)
    during .replace path <| attempt s .replace [temporary, path] fun w =>
      return ((), ← w.rename source path)
  finally
    modify (·.remove temporary)

end Workspace

end Marginalia
