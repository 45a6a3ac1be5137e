import Marginalia.Command.Task
import Marginalia.Diagnosis
import Marginalia.Text.Space

/-!
# Command lines

A command line is read from left to right. Flags may stand before and behind other arguments; two
dashes end them, and the name of a task hands the rest of the line over to that task. What comes out
is a request, in which every choice has its meaning and no flag is left.
-/
namespace Marginalia

inductive Argument where
  | blank
  | dash
  | endOfFlags
  /-- A dash in front of something that cannot begin a name. -/
  | dashed
  | plain (t : Text)
  | flag (name : Text) (value? : Option Text)
deriving DecidableEq, Repr

namespace Argument

/-- Whether the name of a flag may begin with a character behind a single dash. Of a character beyond
ASCII only the first byte counts, and that is a letter's except in one block. -/
def startsName (c : Char) : Bool :=
  if c.toNat < 0x80 then c.isAlpha else !(0x5C0 ≤ c.toNat && c.toNat < 0x600)

/-- The name of a flag and the value behind an equals sign. -/
def named (t : Text) : Argument :=
  match Text.cut? "=" t with
  | some (name, value) => .flag name (some value)
  | none => .flag t none

def ofText (arg : Text) : Argument :=
  match arg.trim with
  | [] => .blank
  | ['-'] => .dash
  | ['-', '-'] => .endOfFlags
  | '-' :: '-' :: t => named t
  | '-' :: c :: t => if startsName c then named (c :: t) else .dashed
  | t => .plain t

end Argument

/-- Choices that override settings. -/
structure Choices where
  /-- The configuration file, empty for the nearest one. -/
  config : Text := []
  level? : Option Int := none
  style? : Option Text := none
  title? : Option Text := none
  parallel? : Option Int := none
deriving DecidableEq, Repr

/-- The form of a document and the place it goes to. -/
structure Delivery where
  code : Bool := false
  noop : Bool := false
  json : Bool := false
  /-- Whether the document goes to the file that the settings name. -/
  write : Bool := false
  /-- The file to write, empty if none was named. -/
  file : Text := []
  verbose : Bool := false
deriving DecidableEq, Repr

/-- What a command line asks for. -/
inductive Request where
  | document (c : Choices) (d : Delivery) (args : List Text)
  | contents (c : Choices) (query : Text) (json : Bool) (args : List Text)
  | segments (c : Choices) (json : Bool) (args : List Text)
  | start (force : Bool)
  /-- Help or the version; nothing is done. -/
  | help
deriving DecidableEq, Repr

/-- Why a command line asks for nothing. -/
inductive LineError where
  | usage (e : UsageError)
  /-- Help on a topic that does not exist. -/
  | noTopic (topic : Text)
deriving DecidableEq, Repr

instance : Diagnosable LineError where
  diagnose
    | .usage e => { message := e.message }
    | .noTopic topic => { message := "No help topic for '" ++ topic ++ "'" }

namespace Line

/-- Reads flags and collects the other arguments. An equals sign in front of nothing gives no value. -/
def readFlags (task : Task) (levels : List Level) :
    List Text → Except UsageError (List Level × List Text)
  | [] => .ok (levels, [])
  | arg :: rest =>
    match Argument.ofText arg with
    | .blank => .ok (levels, [])
    | .dash => .ok (levels, ["-"])
    | .endOfFlags => .ok (levels, rest)
    | .dashed => .ok (levels, arg :: rest)
    | .plain t =>
      if (task.subtask? t).isSome then .ok (levels, arg :: rest)
      else (readFlags task levels rest).map fun (levels, others) => (levels, t :: others)
    | .flag name value? =>
      match Level.flag? levels name with
      | none => .error (.unknown name)
      | some f =>
        match value?, f.kind, rest with
        | some value, kind, rest =>
          if value.isEmpty && kind != .switch then .error (.valueMissing arg.trim)
          else do readFlags task (Level.give f (← f.readValue name value) levels) rest
        | none, .switch, rest => do readFlags task (Level.give f (← f.readValue name []) levels) rest
        | none, _, [] => .error (.valueMissing arg.trim)
        | none, _, value :: rest => do
          readFlags task (Level.give f (← f.readValue name value) levels) rest

/-- The arguments of a task. The help task knows no flags: whatever follows it is a topic. -/
def arguments (task : Task) (outer : List Level) (args : List Text) :
    Except UsageError (List Level × List Text) :=
  let levels := { task } :: outer
  if task = .help then .ok (levels, args) else readFlags task levels args

/-- Asks for help, on the topic that the first argument names. The help task speaks for the task it
stands in. -/
def askHelp (levels : List Level) (others : List Text) : Except LineError Request :=
  let speaker? := (levels.find? (·.task ≠ .help)).map (·.task)
  match speaker?, others with
  | some task, topic :: _ =>
    if topic.isEmpty || (task.subtask? topic).isSome then .ok .help else .error (.noTopic topic)
  | _, _ => .ok .help

def choices (levels : List Level) : Choices :=
  { config := (Level.text? levels .config).getD []
    level? := Level.number? levels .level
    style? := Level.text? levels .style
    title? := Level.text? levels .title
    parallel? := Level.number? levels .parallel }

def delivery (levels : List Level) : Delivery :=
  { code := Level.switch levels .code
    noop := Level.switch levels .noop
    json := Level.switch levels .json
    write := Level.switch levels .write
    file := (Level.text? levels .file).getD []
    verbose := Level.switch levels .verbose }

def request (task : Task) (levels : List Level) (others : List Text) : Except LineError Request :=
  match task with
  | .document => .ok (.document (choices levels) (delivery levels) others)
  | .contents =>
    .ok (.contents (choices levels) ((Level.text? levels .query).getD []) (Level.switch levels .json)
      others)
  | .segments => .ok (.segments (choices levels) (Level.switch levels .json) others)
  | .start => .ok (.start (Level.switch levels .force))
  | .help => askHelp levels others

/-- Reads the arguments of a task inside the levels around it. An argument that repeats the name of a
flag that was given puts an empty argument in front of itself. -/
def interpretFrom (task : Task) (outer : List Level) (args : List Text) :
    Except LineError Request :=
  match arguments task outer args with
  | .error e => .error (.usage e)
  | .ok (levels, others) =>
    if Level.switch levels .help then askHelp levels others
    else if outer.isEmpty && Level.switch levels .version then .ok .help
    else
      match others with
      | [] => request task levels []
      | first :: rest =>
        match _h : task.subtask? first with
        | some sub => interpretFrom sub levels rest
        | none => request task levels (if Level.isGiven levels first then [] :: others else others)
termination_by task.depth
decreasing_by exact Task.depth_lt_of_subtask? _h

/-- What a command line asks for. -/
def interpret (args : List Text) : Except LineError Request := interpretFrom .document [] args

end Line

end Marginalia
