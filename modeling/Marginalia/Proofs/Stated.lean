import Marginalia.Proofs.Discovery
import Marginalia.Proofs.Percent
import Marginalia.Proofs.Writing

/-!
# What a configuration file states

A run goes by the configuration file that is named or by the nearest one. The bytes of the file are a
text, which reads as a table. The value of a key is that of the key as it is written or else that of
the first key that differs from it in case only, and a key that is missing stands for zero.
-/
namespace Marginalia.Settings

open Workspace (pathOf)

section Chosen

/-- The configuration file that a run goes by: the one that is named, which has to be there, or else
the first of the two names in the working directory and in those above it. -/
inductive Chosen (w : Workspace) (config : Text) : Option Text → Prop
  | named {node : Node} : config ≠ [] → w.stat config = .ok node → Chosen w config (some config)
  | nearest {found : Option Text} : config = [] →
      Decides w.stat (w.here.inits.reverse.flatMap fun dir =>
        [pathOf (dir ++ [("solcco.toml" : Text)]), pathOf (dir ++ [(".solcco.toml" : Text)])])
        (.ok found) → Chosen w config found

variable {w : Workspace} {config : Text} {found : Option Text}

end Chosen

section Carries

/-- A path leads to a file whose bytes are a text that reads as a table. -/
def Carries (w : Workspace) (path : Text) (table : Toml.Table) : Prop :=
  ∃ place source, path.getLast? ≠ some '/' ∧ w.locate path = .ok place ∧
    w.node? place = some (.file (Utf8.encode source)) ∧ Toml.parse? source = some table

variable {w : Workspace} {path : Text} {table : Toml.Table}

end Carries

section Fields
variable {α : Type} {read? : Toml.Value → Option α} {zero value : α} {table : Toml.Table}
  {key : Text}

/-- The value of a key in a table. -/
inductive Keyed (table : Toml.Table) (key : Text) : Option Toml.Value → Prop
  | exact {front back : Toml.Table} {v : Toml.Value} : table = front ++ (key, v) :: back →
      (∀ entry ∈ front, entry.1 ≠ key) → Keyed table key (some v)
  | folded {front back : Toml.Table} {k : Text} {v : Toml.Value} :
      (∀ entry ∈ table, entry.1 ≠ key) → table = front ++ (k, v) :: back → sameKey k key = true →
      (∀ entry ∈ front, sameKey entry.1 key = false) → Keyed table key (some v)
  | missing : (∀ entry ∈ table, entry.1 ≠ key ∧ sameKey entry.1 key = false) →
      Keyed table key none

/-- A table states a value for a key if it has one that reads so, and zero if it has none. -/
def StatesAs (read? : Toml.Value → Option α) (zero : α) (table : Toml.Table) (key : Text)
    (value : α) : Prop :=
  Keyed table key none ∧ value = zero ∨ ∃ v, Keyed table key (some v) ∧ read? v = some value

end Fields

/-- What a table states. A hyphen is a key like the others, but its text is not used. -/
structure StatesAll (table : Toml.Table) (stated : Settings) : Prop where
  level : StatesAs integer? 0 table "level" stated.level
  output : StatesAs text? [] table "output" stated.output
  title : StatesAs text? [] table "title" stated.title
  style : StatesAs text? [] table "style" stated.style
  exclude : StatesAs texts? [] table "exclude" stated.exclude
  parallel : StatesAs integer? 0 table "parallel" stated.parallel
  languages : StatesAs mapping? [] table "languages" stated.languages
  directory : stated.directory = []
  hyphen : ∃ unused, StatesAs text? [] table "-" unused

/-- The values that the configuration file of a run states. Without a file all of them are zero. -/
inductive States (w : Workspace) (config : Text) : Option Text → Settings → Prop
  | nothing : Chosen w config none → States w config none {}
  | file {chosen : Text} {table : Toml.Table} {stated : Settings} :
      Chosen w config (some chosen) → Carries w (w.absolute chosen) table →
      StatesAll table stated → States w config (some (w.absolute chosen)) stated

end Marginalia.Settings
