import Marginalia.Command.Deed

/-!
# What a run looks at

Whoever runs a request against a disk has to know which part of the disk it may look at. A request
names paths; it reads its configuration file and the sources that its arguments find; and it writes to
one place at most.
-/
namespace Marginalia

namespace Request

def choices? : Request → Option Choices
  | .document c _ _ => some c
  | .contents c _ _ _ => some c
  | .segments c _ _ => some c
  | _ => none

def arguments : Request → List Text
  | .document _ _ args => args
  | .contents _ _ _ args => args
  | .segments _ _ args => args
  | _ => []

/-- The path of the configuration file that a request names. -/
def configs (r : Request) : List Text :=
  match r.choices? with
  | some c => if c.config.isEmpty then [] else [c.config]
  | none => []

/-- The paths at which a request may read a file, given the names of all files. Exclusions are not
known yet and can only make them fewer. -/
def reads (w : Workspace) (r : Request) : List Text :=
  let found (arg : Text) : List Text :=
    match Reference.expand w.terrain [] arg with
    | .ok refs => refs.map (·.location)
    | .error _ => []
  r.configs ++ Settings.candidates w ++ r.arguments.flatMap found

/-- The path that a request may write to, given for which names there is a lexer. -/
def target? (knows : Text → Bool) (w : Workspace) : Request → Option Text
  | .document c d _ =>
    match c.settings knows w with
    | .ok s => some (Deed.destination s d)
    | .error _ => none
  | .start _ => some Deed.starterPath
  | _ => none

end Request

/-- What stands in the second workspace and not in the first, the places nearest to the root first. -/
def Workspace.changes (before after : Workspace) : List (Location × Node) :=
  (after.nodes.filter fun (place, n) => before.node? place ≠ some n).mergeSort fun a b =>
    a.1.length ≤ b.1.length

end Marginalia
