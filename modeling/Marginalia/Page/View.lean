import Marginalia.Diagnosis
import Marginalia.Text.Utf8

/-!
# Views and where they go

A view is written piece by piece to a sink, which takes a piece or refuses it. The first refusal ends
the view and is reported with the work that it interrupted; what was taken until then stays taken. A
buffer is a sink that takes everything.
-/
namespace Marginalia

/-- A piece that was not taken as a whole: the number of its bytes that were, and the cause. -/
structure Refusal where
  stored : Nat := 0
  cause : Text
deriving DecidableEq, Repr

/-- Where output goes. What becomes of a piece may depend on the pieces before it. -/
abbrev Sink := (before : List Bytes) → (piece : Bytes) → Option Refusal

/-- The pieces that a sink was offered, and the bytes that it took of them. -/
structure Stream where
  offered : List Bytes := []
  taken : Bytes := []
deriving DecidableEq, Repr

namespace Sink

/-- The sink that takes everything. -/
def buffer : Sink := fun _ _ => none

def put (sink : Sink) (piece : Bytes) : ExceptT Text (StateM Stream) Unit := do
  let s ← get
  match sink s.offered piece with
  | none => set ({ offered := s.offered ++ [piece], taken := s.taken ++ piece } : Stream)
  | some r => do
    set ({ offered := s.offered ++ [piece], taken := s.taken ++ piece.take r.stored } : Stream)
    throw r.cause

/-- Offers a piece to a sink, whatever becomes of it. -/
def offer (sink : Sink) (piece : Bytes) : ExceptT Text (StateM Stream) Unit :=
  tryCatch (sink.put piece) fun _ => pure ()

end Sink

inductive View where
  | page
  | code
  | json
deriving DecidableEq, Repr

/-- What is being done while a view is made. -/
def View.work : View → Text
  | .page => "rendering html page"
  | .code => "rendering code view"
  | .json => "encoding json"

/-- A sink that refused a view. -/
structure RenderError where
  view : View
  cause : Text
deriving DecidableEq, Repr

instance : Diagnosable RenderError where
  diagnose e := { code := "RENDER_FAILED", message := e.view.work ++ ": " ++ e.cause }

def View.send (view : View) (sink : Sink) (pieces : List Text) :
    ExceptT RenderError (StateM Stream) Unit :=
  ExceptT.adapt (fun cause => { view, cause }) (pieces.forM fun piece => sink.put (Utf8.encode piece))

/-- The bytes of a view that is sent to a buffer. -/
def View.buffered (view : View) (pieces : List Text) : Except RenderError Bytes :=
  let (result, s) := (view.send .buffer pieces).run.run {}
  result.map fun _ => s.taken

end Marginalia
