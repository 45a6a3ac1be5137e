import Marginalia.Text.Basic

/-!
# Diagnoses

Each part of the library has its own type of causes of failure. What the reader of an error sees is
the same for all of them: a stable code, a message, an optional hint and a few facts about the
place where it happened. A diagnosis is that view.
-/
namespace Marginalia

/-- A fact recorded with a failure. -/
inductive Fact where
  | text (t : Text)
  | number (n : Int)
deriving DecidableEq, Repr

structure Diagnosis where
  /-- The stable code, empty for a failure that has none. -/
  code : Text := []
  message : Text
  /-- How to mend it, empty if nothing is suggested. -/
  hint : Text := []
  facts : List (Text × Fact) := []
deriving DecidableEq, Repr

/-- A type of failures that can be shown. -/
class Diagnosable (ε : Type) where
  diagnose : ε → Diagnosis

export Diagnosable (diagnose)

/-- The same failure seen from the work it interrupted. -/
def Diagnosis.whileDoing (d : Diagnosis) (work : Text) : Diagnosis :=
  { d with message := work ++ ": " ++ d.message }

end Marginalia
