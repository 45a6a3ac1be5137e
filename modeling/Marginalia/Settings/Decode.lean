import Marginalia.Settings.Basic
import Marginalia.Text.Case
import Marginalia.Toml.Number

/-!
# Settings from a configuration file

A value is taken for a setting even if it is of another kind, as long as it has a plain reading: numbers
and truth values are written out where a text is wanted, a text is read where a number is wanted, and a
single value stands for a list of one. Keys are found whatever their case; keys that are not known are
passed over, except that a hyphen names the directory of the file: it has to be a text, though the
directory in which the file was found counts in its place.
-/
namespace Marginalia.Settings

/-- The number that a text is read as. An empty text is zero. -/
def numberIn? (t : Text) : Option Int := if t.isEmpty then some 0 else (Numeral.read t).toOption

def integer? : Toml.Value → Option Int
  | .integer n => some n
  | .float x => some x.toInt
  | .boolean b => some (if b then 1 else 0)
  | .text t => numberIn? t
  | _ => none

def text? : Toml.Value → Option Text
  | .text t => some t
  | .integer n => some (Text.ofInt n)
  | .float x => some x.toText
  | .boolean b => some (if b then "1" else "0")
  | _ => none

def texts? : Toml.Value → Option (List Text)
  | .array vs => vs.mapM text?
  | .table [] => some []
  | v => (text? v).map fun t => [t]

/-- Adds pairs, each in place of the one with its key. -/
def merge (pairs added : List (Text × Text)) : List (Text × Text) :=
  added.foldl (fun ps (k, v) => ps.filter (·.1 ≠ k) ++ [(k, v)]) pairs

mutual

/-- A value where a mapping of texts is wanted. The tables of a list are put together, and an instant
has no fields. -/
def mapping? : Toml.Value → Option (List (Text × Text))
  | .table fields => fields.mapM fun (k, v) => (text? v).map fun t => (k, t)
  | .array vs => mappings? vs
  | .instant _ => some []
  | _ => none

/-- The mappings of a list, put together. -/
def mappings? : List Toml.Value → Option (List (Text × Text))
  | [] => some []
  | v :: vs => do return merge (← mapping? v) (← mappings? vs)

end

/-- Whether two keys differ in case at most. -/
def sameKey (a b : Text) : Bool := a.length == b.length && (List.zipWith sameLetter a b).all id

/-- The value of a key: of the key as it is written, or else of one that differs in case only. -/
def field? (table : Toml.Table) (key : Text) : Option Toml.Value :=
  match table.lookup key with
  | some v => some v
  | none => (table.find? fun (k, _) => sameKey k key).map (·.2)

/-- The value of a key in the form that is wanted, zero if the key is missing. -/
def fieldAs? {α : Type} (read? : Toml.Value → Option α) (zero : α) (table : Toml.Table) (key : Text) :
    Option α :=
  match field? table key with
  | none => some zero
  | some v => read? v

def ofTable? (table : Toml.Table) : Option Settings := do
  let _directory ← fieldAs? text? [] table "-"
  return {
    level := ← fieldAs? integer? 0 table "level"
    output := ← fieldAs? text? [] table "output"
    title := ← fieldAs? text? [] table "title"
    style := ← fieldAs? text? [] table "style"
    exclude := ← fieldAs? texts? [] table "exclude"
    parallel := ← fieldAs? integer? 0 table "parallel"
    languages := ← fieldAs? mapping? [] table "languages" }

end Marginalia.Settings
