import Marginalia.Command.Flag

/-!
# Tasks and their levels

The program has a main task, which documents files, and further tasks that are named by the first
argument. Each task knows its own flags and, inside another task, those of that one too. A level holds
what the flags of one task were given; levels are listed with the innermost one first.
-/
namespace Marginalia

inductive Task where
  | document
  | contents
  | segments
  | start
  | help
deriving DecidableEq, Repr

namespace Task

def names : Task → List Text
  | .document => ["solcco"]
  | .contents => ["toc"]
  | .segments => ["segments"]
  | .start => ["init"]
  | .help => ["help", "h"]

def flags : Task → List Flag
  | .document =>
    [.config, .code, .level, .noop, .write, .file, .json, .style, .title, .parallel, .verbose, .help,
      .version]
  | .contents => [.config, .level, .query, .json, .help]
  | .segments => [.config, .json, .help]
  | .start => [.force, .help]
  | .help => []

/-- The tasks that an argument of a task may name. -/
def subtasks : Task → List Task
  | .document => [.contents, .segments, .start, .help]
  | .contents | .segments | .start => [.help]
  | .help => []

def subtask? (task : Task) (name : Text) : Option Task :=
  task.subtasks.find? (·.names.contains name)

/-- How many tasks may follow one another from here. -/
def depth : Task → Nat
  | .document => 2
  | .contents | .segments | .start => 1
  | .help => 0

theorem depth_lt_of_mem_subtasks {task sub : Task} (h : sub ∈ task.subtasks) :
    sub.depth < task.depth := by
  cases task <;> cases sub <;> simp_all [subtasks, depth]

/-- A subtask is nearer to the end of the command line. -/
theorem depth_lt_of_subtask? {task sub : Task} {name : Text} (h : task.subtask? name = some sub) :
    sub.depth < task.depth :=
  depth_lt_of_mem_subtasks (List.mem_of_find?_eq_some h)

end Task

/-- What the flags of a task were given, the latest first. -/
structure Level where
  task : Task
  given : List (Flag × FlagValue) := []
deriving DecidableEq, Repr

namespace Level

def flag? (levels : List Level) (name : Text) : Option Flag :=
  (levels.flatMap (·.task.flags)).find? (·.names.contains name)

/-- Gives a flag a value at the innermost level that knows it. -/
def give (f : Flag) (v : FlagValue) : List Level → List Level
  | [] => []
  | l :: ls =>
    if l.task.flags.contains f then { l with given := (f, v) :: l.given } :: ls else l :: give f v ls

/-- What a flag was given at the innermost level that knows it. -/
def value? (levels : List Level) (f : Flag) : Option FlagValue := do
  (← levels.find? (·.task.flags.contains f)).given.lookup f

def switch (levels : List Level) (f : Flag) : Bool := value? levels f == some (.switch true)

def text? (levels : List Level) (f : Flag) : Option Text :=
  match value? levels f with
  | some (.text t) => some t
  | _ => none

def number? (levels : List Level) (f : Flag) : Option Int :=
  match value? levels f with
  | some (.number n) => some n
  | _ => none

/-- Whether a name is that of a flag that was given a value. -/
def isGiven (levels : List Level) (name : Text) : Bool :=
  levels.any fun l => l.given.any fun (f, _) => f.names.contains name

end Level

end Marginalia
