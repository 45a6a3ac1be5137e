import Marginalia.Path
import Marginalia.Text.Utf8

/-!
# Workspaces

A workspace is a tree of files and directories together with the directory in which work is done. A
path is followed from that directory, or from the root, one component at a time; each step either
arrives or says what is in its way. A loop is a link that leads to itself: it can be found, but
nothing can be reached through it.
-/
namespace Marginalia

/-- A place in the tree: the names on the way to it from the root. -/
abbrev Location := List Text

inductive Node where
  | file (content : Bytes)
  | directory
  | loop
deriving DecidableEq, Repr

inductive Trouble where
  | missing
  | notDirectory
  | isDirectory
  | taken
  | exhausted
  | looping
  | nameTooLong
  | invalid
deriving DecidableEq, Repr

def Trouble.message : Trouble → Text
  | .missing => "no such file or directory"
  | .notDirectory => "not a directory"
  | .isDirectory => "is a directory"
  | .taken => "file exists"
  | .exhausted => "file already exists"
  | .looping => "too many levels of symbolic links"
  | .nameTooLong => "file name too long"
  | .invalid => "invalid argument"

/-- A file operation that failed: its name, its operands and what was in the way. -/
structure FileError where
  operation : Text
  operands : List Text
  trouble : Trouble
deriving DecidableEq, Repr

def FileError.message (e : FileError) : Text :=
  Text.join " " (e.operation :: e.operands) ++ ": " ++ e.trouble.message

/-- A tree of files and the directory in which work is done. The root is always a directory. -/
structure Workspace where
  nodes : List (Location × Node) := []
  here : Location := []
deriving Repr

namespace Workspace

def node? (w : Workspace) (place : Location) : Option Node :=
  if place.isEmpty then some .directory else w.nodes.lookup place

/-- Puts a node at a place, over what stands there. -/
def put (w : Workspace) (place : Location) (n : Node) : Workspace :=
  { w with nodes := (place, n) :: w.nodes.filter (·.1 ≠ place) }

def erase (w : Workspace) (place : Location) : Workspace :=
  { w with nodes := w.nodes.filter (·.1 ≠ place) }

/-- Puts a node at a place and directories at the places above it that are free. -/
def plant (w : Workspace) (place : Location) (n : Node) : Workspace :=
  let above := (List.range (place.length - 1)).map fun k => place.take (k + 1)
  let w := above.foldl (fun w p => if (w.node? p).isSome then w else w.put p .directory) w
  w.put place n

def maxNameLength : Nat := 255

def maxPathLength : Nat := 4095

/-- Whether a place can be looked into, and what is in the way if not. -/
def lookInto (w : Workspace) (place : Location) : Except Trouble Unit :=
  match w.node? place with
  | some .directory => .ok ()
  | some .loop => .error .looping
  | some (.file _) => .error .notDirectory
  | none => .error .missing

/-- Follows one component of a path. -/
def enter (w : Workspace) (place : Location) (name : Text) : Except Trouble Location := do
  w.lookInto place
  if name = Path.here then return place
  else if name = Path.up then return place.dropLast
  else if name.byteLength > maxNameLength then throw .nameTooLong
  else if (w.node? (place ++ [name])).isSome then return place ++ [name]
  else throw .missing

def walk (w : Workspace) (place : Location) (names : List Text) : Except Trouble Location :=
  names.foldlM w.enter place

def start (w : Workspace) (path : Text) : Location := if Path.isAbsolute path then [] else w.here

def checkPath (path : Text) : Except Trouble Unit :=
  if path.contains '\x00' then .error .invalid
  else if path.isEmpty then .error .missing
  else if path.byteLength > maxPathLength then .error .nameTooLong
  else .ok ()

def locate (w : Workspace) (path : Text) : Except Trouble Location := do
  checkPath path
  w.walk (w.start path) (Path.names path)

/-- What a path leads to. A slash at the end asks for a directory. -/
def stat (w : Workspace) (path : Text) : Except Trouble Node := do
  match w.node? (← w.locate path) with
  | some .directory => return .directory
  | some .loop => throw .looping
  | some (.file content) => if path.getLast? = some '/' then throw .notDirectory else return .file content
  | none => throw .missing

def isDirectory (w : Workspace) (path : Text) : Bool :=
  match w.stat path with
  | .ok .directory => true
  | _ => false

def read (w : Workspace) (path : Text) : Except FileError Bytes :=
  match w.stat path with
  | .ok (.file content) => .ok content
  | .ok _ => .error ⟨"read", [path], .isDirectory⟩
  | .error t => .error ⟨"open", [path], t⟩

def pathOf (place : Location) : Text := Path.ofNames true place

/-- The path from the root that a path means here. -/
def absolute (w : Workspace) (path : Text) : Text :=
  if Path.isAbsolute path then Path.clean path else Path.join [pathOf w.here, path]

end Workspace

end Marginalia
