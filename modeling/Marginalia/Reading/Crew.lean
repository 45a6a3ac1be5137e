import Marginalia.Reading

/-!
# Reading many sources at a time

Each source is the task of one worker, who fetches it, decodes it and puts it into a slot of its own.
Tasks are handed out in order, as long as no more workers are busy than are allowed at a time. The
first worker who fails settles how the work as a whole fails and calls it off: downloads that are
still going on may then be interrupted, and fail too. The work is over when no worker is busy and no
task is left.

Workers take turns in any order. A schedule lists the turns; what a crew does is fixed by it.
-/
namespace Marginalia.Reading

/-- How many sources are read at a time where no number is chosen. -/
def defaultParallel : Nat := 4

def crewSize (parallel : Int) : Nat := if parallel ≤ 0 then defaultParallel else parallel.toNat

/-- Why a worker failed: of its own, or because the work had been called off. -/
inductive Setback where
  | own (e : ReadError)
  | calledOff (e : ReadError)
deriving DecidableEq, Repr

inductive Stage where
  | waiting
  | fetching
  | receiving (answer : Response)
  | decoding (content : Bytes)
  | writing (source : Source)
  | failing (setback : Setback)
  | finished
deriving DecidableEq, Repr

/-- Goes on with what came through, or fails. -/
def Stage.after {α : Type} (next : α → Stage) : Except ReadError α → Stage
  | .ok v => next v
  | .error e => .failing (.own e)

/-- The task of a worker: what to read, how far it is, and the slot of the source. -/
structure Task where
  reference : Reference
  stage : Stage := .waiting
  slot : Source := { file := [], content := [] }
deriving DecidableEq, Repr

namespace Task

/-- Whether a worker is at the task. -/
def isBusy (t : Task) : Bool := t.stage ≠ .waiting ∧ t.stage ≠ .finished

/-- The next piece of work at a task that is neither waiting, failing nor over. -/
def proceed? (w : Workspace) (web : Web) (t : Task) : Option Task :=
  let r := t.reference
  match t.stage with
  | .fetching =>
    match r.origin with
    | .url => some { t with stage := .after .receiving (ask web r.location) }
    | .file => some { t with stage := .after .decoding (fetch w web r) }
  | .receiving answer => some { t with stage := .after .decoding (receive r.location answer) }
  | .decoding content => some { t with stage := .after .writing (decode r content) }
  | .writing source => some { t with stage := .finished, slot := source }
  | .waiting | .failing _ | .finished => none

/-- A download that is interrupted. Files are read to their end. -/
def interrupt? (cause : Text) (t : Task) : Option Task :=
  let r := t.reference
  match t.stage with
  | .fetching =>
    match r.origin with
    | .url => some { t with stage := .failing (.calledOff (.unreachable r.location cause)) }
    | .file => none
  | .receiving _ => some { t with stage := .failing (.calledOff (.broken r.location cause)) }
  | _ => none

end Task

/-- Workers at their tasks, and the first failure among them. -/
structure Crew where
  tasks : List Task
  failure? : Option Setback := none
deriving DecidableEq, Repr

inductive Turn where
  /-- A worker takes the next task. -/
  | launch
  /-- The worker at the task with this number goes on. -/
  | proceed (i : Nat)
  /-- The worker at the task with this number learns that the work was called off. -/
  | interrupt (i : Nat) (cause : Text)
deriving DecidableEq, Repr

namespace Crew

def ofReferences (refs : List Reference) : Crew := { tasks := refs.map fun r => { reference := r } }

def isCalledOff (c : Crew) : Bool := c.failure?.isSome

def busy (c : Crew) : Nat := c.tasks.countP Task.isBusy

def put (c : Crew) (i : Nat) (t : Task) : Crew := { c with tasks := c.tasks.set i t }

/-- A worker takes the next task, if one more worker may be busy. -/
def launch? (limit : Nat) (c : Crew) : Option Crew :=
  if c.busy < limit then do
    let i ← c.tasks.findIdx? fun t => t.stage = .waiting
    let t ← c.tasks[i]?
    return c.put i { t with stage := .fetching }
  else none

/-- A worker goes on. One who failed is done; if nobody failed before, this is the failure. -/
def proceed? (w : Workspace) (web : Web) (c : Crew) (i : Nat) : Option Crew := do
  let t ← c.tasks[i]?
  match t.stage with
  | .failing setback =>
    return { c.put i { t with stage := .finished } with failure? := c.failure?.or (some setback) }
  | _ => return c.put i (← t.proceed? w web)

/-- A worker is interrupted, once the work was called off. -/
def interrupt? (c : Crew) (i : Nat) (cause : Text) : Option Crew := do
  if c.isCalledOff then
    return c.put i (← (← c.tasks[i]?).interrupt? cause)
  else none

/-- The crew after a turn, if the turn is possible. -/
def act? (limit : Nat) (w : Workspace) (web : Web) (c : Crew) : Turn → Option Crew
  | .launch => c.launch? limit
  | .proceed i => c.proceed? w web i
  | .interrupt i cause => c.interrupt? i cause

/-- The crew after a schedule, if each of its turns is possible. -/
def follow? (limit : Nat) (w : Workspace) (web : Web) (c : Crew) (schedule : List Turn) :
    Option Crew :=
  schedule.foldlM (act? limit w web) c

/-- What the work gives, once it is over: the first failure, or else the slots in order. -/
def outcome? (c : Crew) : Option (Except Setback (List Source)) :=
  if c.tasks.all (·.stage = .finished) then
    match c.failure? with
    | some setback => some (.error setback)
    | none => some (.ok (c.tasks.map Task.slot))
  else none

end Crew

end Marginalia.Reading
