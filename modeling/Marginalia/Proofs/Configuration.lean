import Mathlib
import Marginalia.Command.Deed
import Marginalia.Proofs.Outcome
import Marginalia.Proofs.Stated
import Marginalia.Reading.Crew

/-!
# Settings of a run

Settings are made in three steps: a configuration file states some values, defaults take the place
of those it leaves at zero, and choices of the command line take the place of both. They are checked
behind the second step where there is a file, and behind the third in any case. A check says neither
more nor less than that every value is within its bounds, so whatever settings a run goes by are
within theirs, and no later stage has to fall back on a default of its own.
-/
namespace Marginalia

namespace Settings

variable {knows : Text → Bool}

section Check

end Check

/-- Stated values with defaults for what is left at zero. The output of a file is taken from its
directory. -/
def completed (path? : Option Text) (stated : Settings) : Settings :=
  match path? with
  | none => stated.withDefaults
  | some path =>
    let s := { stated with directory := Path.directory path }.withDefaults
    if Path.isAbsolute s.output then s else { s with output := Path.join [s.directory, s.output] }

section Load
variable {w : Workspace} {config : Text} {s stated : Settings} {path? : Option Text}

end Load

/-- Where each value of a run's settings comes from: a choice of the command line, or else what is
stated, or else a default. -/
structure Drawn (c : Choices) (path? : Option Text) (stated s : Settings) : Prop where
  level : s.level = c.level?.getD (if stated.level = 0 then 2 else stated.level)
  style : s.style = c.style?.getD (if stated.style = [] then "github" else stated.style)
  title : s.title = c.title?.getD (if stated.title = [] then "Documentation" else stated.title)
  parallel : s.parallel = c.parallel?.getD (if stated.parallel = 0 then 4 else stated.parallel)
  exclude : s.exclude = stated.exclude
  languages : s.languages = stated.languages
  /-- Without a file the output is the default one. -/
  output_default : path? = none → s.output = "out.html"
  /-- With a file the output is a path from the root: the one that is stated, or taken from the
  directory of the file. -/
  output_file : ∀ path, path? = some path → Path.isAbsolute s.output = true ∧
    let named : Text := if stated.output = [] then "out.html" else stated.output
    s.output = if Path.isAbsolute named then named else Path.join [Path.directory path, named]

end Settings

namespace Path

theorem isAbsolute_append {front : Text} (h : isAbsolute front = true) (back : Text) :
    isAbsolute (front ++ back) = true := by
  cases front with
  | nil => cases h
  | cons c cs => exact h

theorem isAbsolute_join {path : Text} (h : isAbsolute path = true) (parts : List Text) :
    isAbsolute (join (path :: parts)) = true := by
  have hne : path ≠ [] := by
    rintro rfl
    cases h
  rw [join, List.filter_cons_of_pos (by simpa using hne)]
  simp only
  rw [isAbsolute_clean]
  cases parts.filter (· ≠ []) with
  | nil =>
      rw [Text.join_singleton]
      exact h
  | cons part parts =>
      rw [Text.join_cons_cons]
      exact isAbsolute_append h _

theorem isAbsolute_directory {path : Text} (h : isAbsolute path = true) :
    isAbsolute (directory path) = true := by
  cases path with
  | nil => cases h
  | cons c cs =>
      obtain rfl : c = '/' := by simpa [isAbsolute] using h
      rw [directory, isAbsolute_clean, List.reverse_cons, List.dropWhile_append]
      split
      · rfl
      · rw [List.reverse_append]
        rfl

end Path

theorem Workspace.isAbsolute_absolute (w : Workspace) (path : Text) :
    Path.isAbsolute (w.absolute path) = true := by
  unfold absolute
  split
  · next h => rw [Path.isAbsolute_clean, h]
  · exact Path.isAbsolute_join rfl _

namespace Settings

variable {knows : Text → Bool} {w : Workspace} {c : Choices} {config : Text}
  {s stated : Settings} {path? : Option Text}

theorem States.isAbsolute {path : Text} (h : States w config (some path) stated) :
    Path.isAbsolute path = true := by
  cases h with
  | file => exact w.isAbsolute_absolute _

theorem States.drawn (h : States w config path? stated) (c : Choices) :
    Drawn c path? stated (c.override (completed path? stated)) := by
  cases path? with
  | none =>
      cases h with
      | nothing =>
          refine ⟨rfl, rfl, rfl, rfl, rfl, rfl, fun _ => rfl, ?_⟩
          intro path heq
          exact absurd heq.symm (Option.some_ne_none path)
  | some path =>
      have hdirectory := Path.isAbsolute_directory h.isAbsolute
      have hfile : ¬some path = none := Option.some_ne_none path
      rw [completed]
      split
      · next habsolute =>
        refine ⟨rfl, rfl, rfl, rfl, rfl, rfl, fun heq => absurd heq hfile, ?_⟩
        intro _ heq
        cases heq
        exact ⟨habsolute, (if_pos habsolute).symm⟩
      · next hrelative =>
        refine ⟨rfl, rfl, rfl, rfl, rfl, rfl, fun heq => absurd heq hfile, ?_⟩
        intro _ heq
        cases heq
        exact ⟨Path.isAbsolute_join hdirectory _, (if_neg hrelative).symm⟩

section Errors
variable {e : LoadError}

end Errors

section Fallback

end Fallback

end Settings

end Marginalia
