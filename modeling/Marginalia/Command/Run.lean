import Marginalia.Command.Deed

/-!
# Runs

A run reads its command line, works the request out and then does the deed. What it acts on are the
workspace and the two outputs of the program; only the deed touches the workspace and the first of
them.
-/
namespace Marginalia

/-- The surroundings of a run. -/
structure Host where
  workspace : Workspace
  web : Web
  /-- What becomes of the steps of writing a file. -/
  storage : Storage := {}
  stdout : Sink := .buffer
  /-- Whether reports are inked. -/
  color : Bool := false
  loom : Loom ColoringError := .plain

/-- What a run acts on. -/
structure Scene where
  workspace : Workspace
  stdout : Stream := {}
  stderr : Text := []

abbrev Course := ExceptT RunError (StateM Scene)

namespace Course

def inWorkspace (x : Workspace.Work WriteError Unit) : Course Unit := fun s =>
  let (result, workspace) := x.run.run s.workspace
  (result.mapError .write, { s with workspace })

def toStdout {ε : Type} (error : ε → RunError) (x : ExceptT ε (StateM Stream) Unit) : Course Unit :=
  fun s =>
    let (result, stdout) := x.run.run s.stdout
    (result.mapError error, { s with stdout })

def report (r : Reporter) (x : Report) : Course Unit :=
  modify fun s => { s with stderr := s.stderr ++ r.line x }

end Course

/-- Puts an output out. Whether a table is taken, or the line end behind it, is not asked. -/
def Output.put (sink : Sink) : Output → Course Unit
  | .view v pieces => Course.toStdout .render (v.send sink pieces)
  | .document content => Course.toStdout .output (Sink.put sink content)
  | .table drawn => Course.toStdout .output do
    Sink.offer sink (Utf8.encode (Text.dropEnding "\n" drawn))
    Sink.offer sink (Utf8.encode "\n")

def Deed.perform (h : Host) (r : Reporter) : Deed → Course Unit
  | .nothing => return
  | .print output => output.put h.stdout
  | .tell x => Course.report r x
  | .write path content x => do
    Course.inWorkspace (Workspace.write path content h.storage)
    Course.report r x

def course (h : Host) (args : List Text) : Course Unit := do
  let request ← liftExcept ((Line.interpret args).mapError .line)
  let r : Reporter := { color := h.color, verbose := request.verbose }
  let (result, events) := request.workOut h.workspace h.web h.loom
  events.forM fun e => Course.report r (.ofEvent e)
  let deed ← liftExcept result
  deed.perform h r
where
  liftExcept {α : Type} (x : Except RunError α) : Course α := ExceptT.mk (pure x)

structure Outcome where
  failure? : Option RunError
  stdout : Bytes
  stderr : Text
  workspace : Workspace

namespace Outcome

/-- The status that the program ends with. -/
def status (o : Outcome) : Nat :=
  match o.failure? with
  | none => 0
  | some _ => 1

end Outcome

/-- The account of a failure. A wrong use of flags is announced first. -/
def RunError.account (r : Reporter) (e : RunError) : Text :=
  let d := diagnose e
  let announced : Text :=
    match e with
    | .line (.usage u) => "Incorrect Usage: " ++ u.message ++ "\n\n"
    | _ => []
  let hint : Text := if d.hint.isEmpty then [] else r.inked .faint ("hint: " ++ d.hint) ++ "\n"
  announced ++ r.line (.failed d.message) ++ hint

/-- Runs what a command line asks for. -/
def run (h : Host) (args : List Text) : Outcome :=
  let (result, s) := (course h args).run.run { workspace := h.workspace }
  let account : Text :=
    match result with
    | .ok () => []
    | .error e => e.account { color := h.color }
  { failure? := match result with
      | .ok () => none
      | .error e => some e
    stdout := s.stdout.taken
    stderr := s.stderr ++ account
    workspace := s.workspace }

end Marginalia
