import Marginalia.Command.Inquiry
import Marginalia.Command.Run

/-!
# The program

The program looks at the part of the disk that its command line is about, runs on that picture of it,
and then carries the changes over to the disk. Addresses cannot be reached from here.
-/
namespace Marginalia.Disk

/-- The disk's name for a place. -/
def name (place : Location) : String := String.ofList (Workspace.pathOf place)

/-- The disk's handle of a place. -/
def handle (place : Location) := (fun top => top / name place) <$> IO.currentDir

/-- What stands at a place, without the content of a file. -/
def node? (place : Location) : IO (Option Node) := do
  let h ← handle place
  if ← h.isDir then return some .directory
  else if ← h.pathExists then return some (.file [])
  else
    try
      discard h.symlinkMetadata
      return some .loop
    catch _ => return none

/-- Adds a place, and the directories on the way to it, to a picture. -/
def reach (w : Workspace) (place : Location) : IO Workspace := do
  match ← node? place with
  | some n => return if (w.node? place).isSome then w else w.plant place n
  | none =>
    let above := (List.range place.length).map fun k => place.take k
    above.foldlM (fun w p => do
      match ← node? p with
      | some n => return if (w.node? p).isSome then w else w.put p n
      | none => return w) w

/-- Adds everything below a directory to a picture. Links are not followed any further. -/
partial def survey (w : Workspace) (place : Location) : IO Workspace := do
  let h ← handle place
  unless ← h.isDir do return w
  let mut w ← reach w place
  for entry in ← h.readDir do
    let below := place ++ [entry.fileName.toList]
    w ← reach w below
    let isLink := match (← (← handle below).symlinkMetadata).type with
      | .symlink => true
      | _ => false
    unless isLink do w ← survey w below
  return w

/-- The place that a path means. -/
def place (w : Workspace) (path : Text) : Location := Path.names (w.absolute path)

/-- Adds the files that an argument stands for to a picture. -/
def reachArgument (w : Workspace) (arg : Text) : IO Workspace := do
  if Reference.isUrl arg then return w
  else if Glob.isPattern arg then
    survey w ((place w arg).takeWhile fun name => !Glob.isPattern name)
  else reach w (place w arg)

/-- Reads the content of a file into a picture. -/
def fill (w : Workspace) (path : Text) : IO Workspace := do
  match w.locate path with
  | .ok place =>
    match w.node? place with
    | some (.file []) => return w.put place (.file (← IO.FS.readBinFile (name place)).toList)
    | _ => return w
  | .error _ => return w

/-- A picture of what a request looks at. -/
def picture (knows : Text → Bool) (request : Request) : IO Workspace := do
  let here := Path.names (toString (← IO.currentDir)).toList
  let mut w := ({ here } : Workspace).plant here .directory
  for arg in request.arguments do w ← reachArgument w arg
  for path in request.configs ++ Settings.candidates w do w ← reach w (place w path)
  for path in request.reads w do w ← fill w path
  match request.target? knows w with
  | some path => reach w (place w path)
  | none => return w

/-- Makes one change. A file is written beside its place and then moved there. -/
def change : Location × Node → IO Unit
  | (place, .directory) => IO.FS.createDirAll (name place)
  | (place, .file content) => do
    let temporary := name (place.dropLast ++ [Workspace.temporaryName 0])
    IO.FS.writeBinFile temporary content.toByteArray
    IO.FS.rename temporary (name place)
  | (_, .loop) => return

end Marginalia.Disk

open Marginalia

/-- Runs the command line on the disk. -/
def main (words : List String) : IO UInt32 := do
  let args := words.map String.toList
  let loom : Loom ColoringError := .plain
  let workspace ←
    match Line.interpret args with
    | .ok request => Disk.picture loom.knows request
    | .error _ => pure {}
  let color := (← (← IO.getStdout).isTty) && ((← IO.getEnv "NO_COLOR").getD "").isEmpty
  let first ← IO.rand 0 0xFFFFFFFF
  let storage : Storage := { draw := (first + ·) }
  let o := run { workspace, web := fun _ => .error "no network", storage, color, loom } args
  (workspace.changes o.workspace).forM Disk.change
  (← IO.getStdout).write o.stdout.toByteArray
  (← IO.getStderr).putStr (String.ofList o.stderr)
  return UInt32.ofNat o.status
