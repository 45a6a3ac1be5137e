import Marginalia.Weave

/-!
# Reports

What a run tells its user: one line for each file in verbose mode, and one for its result. On a
terminal the pieces of a line are inked.
-/
namespace Marginalia

inductive Ink where
  | green
  | red
  | yellow
  | bold
  | faint
deriving DecidableEq, Repr

/-- The control codes that turn an ink on and off. -/
def Ink.codes : Ink → Nat × Nat
  | .green => (32, 0)
  | .red => (31, 0)
  | .yellow => (33, 0)
  | .bold => (1, 22)
  | .faint => (2, 22)

/-- A number of things, with the plural of their noun unless there is one. -/
def Text.counted (n : Int) (noun : Text) : Text :=
  let plural : Text := if n = 1 then [] else "s"
  Text.ofInt n ++ " " ++ noun ++ plural

inductive Report where
  | woven (file language : Text) (segments cards : Int)
  | wrote (path : Text) (files : Int)
  | processed (files : Int)
  | created (path : Text)
  | failed (message : Text)
deriving DecidableEq, Repr

structure Reporter where
  /-- Whether each file is reported. -/
  verbose : Bool := false
  color : Bool := false
deriving DecidableEq, Repr

namespace Reporter

/-- A piece of a line in an ink. -/
def inked (r : Reporter) (ink : Ink) (t : Text) : Text :=
  let code (n : Nat) : Text := "\x1b[" ++ Text.ofNat n ++ "m"
  if r.color then code ink.codes.1 ++ t ++ code ink.codes.2 else t

def words (r : Reporter) : Report → List Text
  | .woven file language segments cards =>
    [r.inked .faint "·", r.inked .bold file,
      r.inked .faint ("(" ++ language ++ ", " ++ Text.ofInt segments ++ " segments, "
        ++ Text.counted cards "pack" ++ ")")]
  | .wrote path files =>
    [r.inked .green "✓", "wrote", r.inked .bold path,
      r.inked .faint ("(" ++ Text.counted files "file" ++ ")")]
  | .processed files =>
    [r.inked .yellow "—", "processed", Text.counted files "file",
      r.inked .faint "(noop, nothing written)"]
  | .created path => [r.inked .green "✓", "created", r.inked .bold path]
  | .failed message => [r.inked .red "✗", message]

def shows (r : Reporter) : Report → Bool
  | .woven .. => r.verbose
  | _ => true

/-- The line of a report, nothing if it is not shown. -/
def line (r : Reporter) (x : Report) : Text :=
  if r.shows x then Text.join " " (r.words x) ++ "\n" else []

end Reporter

def Report.ofEvent (e : Event) : Report := .woven e.file e.language.name e.segments e.cards

end Marginalia
