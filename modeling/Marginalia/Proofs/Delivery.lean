import Marginalia.Command.Run
import Marginalia.Proofs.Writing

/-!
# What an output takes

A sink is offered pieces one after another and takes them until it refuses one. Then it holds what
stands in front of that piece and a part of it; a buffer refuses nothing. A deed acts either on the
files or on the output: one that puts something out leaves the files alone even if it is refused, and
one that writes a file puts nothing out.
-/
namespace Marginalia

open Workspace (DrawsBeside Ensures Readied Written)

namespace Sink

/-- What comes of offering pieces until one is refused. -/
inductive Takes (sink : Sink) (s : Stream) (pieces : List Bytes) :
    Except Text Unit × Stream → Prop
  | all : Takes sink s pieces
      (.ok (), { offered := s.offered ++ pieces, taken := s.taken ++ pieces.flatten })
  | refused {before : List Bytes} {piece : Bytes} {r : Refusal} :
      before ++ [piece] <+: pieces → sink (s.offered ++ before) piece = some r →
      Takes sink s pieces
        (.error r.cause,
          { offered := s.offered ++ (before ++ [piece])
            taken := s.taken ++ (before.flatten ++ piece.take r.stored) })

variable {sink : Sink}

/-- A sink that refused one of some pieces has taken those in front of it and a part of it. -/
def Refuses (sink : Sink) (pieces : List Bytes) (taken : Bytes) (cause : Text) : Prop :=
  ∃ before piece r, before ++ [piece] <+: pieces ∧ sink before piece = some r ∧ r.cause = cause ∧
    taken = before.flatten ++ piece.take r.stored

end Sink

namespace View
variable {sink : Sink}

/-- An output that is full has taken the front of the view. -/
example :
    let full : Sink := fun before _ =>
      if before.length = 2 then some { stored := 1, cause := "full" } else none
    let r := (View.code.send full ["a", "\n", "x;"]).run.run {}
    r.1 = .error { view := .code, cause := "full" } ∧ r.2.taken = [0x61, 0x0A, 0x78] := by
  exact ⟨rfl, rfl⟩

end View

/-- The pieces in which something is put out. -/
def Output.pieces : Output → List Bytes
  | .view _ pieces => pieces.map Utf8.encode
  | .document content => [content]
  | .table drawn => [Utf8.encode (Text.dropEnding "\n" drawn), Utf8.encode "\n"]

/-- A file was written. If a drawn name of a temporary file was that of the path, it may be gone
instead. -/
def Host.Rewrites (h : Host) (path : Text) (content : Bytes) (w w' : Workspace) : Prop :=
  Written path content w w' ∨
    ¬DrawsBeside h.storage path ∧ Readied (Path.ancestry (Path.directory path)) w w'

namespace Deed

/-- What comes of a deed: its result, the files behind it and what the output took. -/
inductive Acts (h : Host) (w : Workspace) : Deed → Except RunError Unit → Workspace → Bytes → Prop
  | nothing : Acts h w .nothing (.ok ()) w []
  | tell (x : Report) : Acts h w (.tell x) (.ok ()) w []
  | view (v : View) (pieces : List Text) :
      Acts h w (.print (.view v pieces)) (.ok ()) w (pieces.map Utf8.encode).flatten
  | viewRefused {view : View} {pieces : List Text} {cause : Text} {taken : Bytes} :
      h.stdout.Refuses (Output.view view pieces).pieces taken cause →
      Acts h w (.print (.view view pieces)) (.error (.render { view, cause })) w taken
  | document (content : Bytes) : Acts h w (.print (.document content)) (.ok ()) w content
  | documentRefused {content taken : Bytes} {cause : Text} :
      h.stdout.Refuses (Output.document content).pieces taken cause →
      Acts h w (.print (.document content)) (.error (.output cause)) w taken
  | table (drawn : Text) (taken : Bytes) : Acts h w (.print (.table drawn)) (.ok ()) w taken
  | written {path : Text} {content : Bytes} {x : Report} {w' : Workspace} :
      h.Rewrites path content w w' → Acts h w (.write path content x) (.ok ()) w' []
  | unwritten {path : Text} {content : Bytes} {x : Report} {e : WriteError} {w' : Workspace} :
      Readied (Path.ancestry (Path.directory path)) w w' →
      Acts h w (.write path content x) (.error (.write e)) w' []

end Deed

end Marginalia
