import Marginalia.Toml.Value

/-!
# Defining keys

A key may be defined once. A table is opened by a header, implied by the header of a table inside it,
or made by a key with dots; a table that a header has opened, or that dotted keys have made, is not
opened again, and dotted keys do not reach into a table that a header has opened. A doubled header adds
a table to a list of tables.
-/
namespace Marginalia.Toml

/-- How a table came to be. -/
inductive TableOrigin where
  | headed
  | implied
  | dotted
deriving DecidableEq, Repr

/-- What a key stands for while a file is read. -/
inductive Entry where
  | value (v : Value)
  | table (origin : TableOrigin) (entries : List (Text × Entry))
  /-- A list of tables, of which the last one is still open. -/
  | tables (closed : List Value) (entries : List (Text × Entry))

/-- The entries of a table in the order of their definition. -/
abbrev Entries := List (Text × Entry)

mutual

def Entry.finish : Entry → Value
  | .value v => v
  | .table _ entries => .table (finishAll entries)
  | .tables closed entries => .array (closed ++ [.table (finishAll entries)])

def finishAll : List (Text × Entry) → List (Text × Value)
  | [] => []
  | (name, e) :: rest => (name, e.finish) :: finishAll rest

end

namespace Entries

/-- Replaces or adds an entry. -/
def set (entries : Entries) (name : Text) (e : Entry) : Entries :=
  if entries.any (·.1 = name) then entries.map fun (n, old) => if n = name then (n, e) else (n, old)
  else entries ++ [(name, e)]

/-- Defines a key, which may have dots. -/
def assign (v : Value) : List Text → Entries → Option Entries
  | [], _ => none
  | [name], entries =>
    match entries.lookup name with
    | none => some (entries.set name (.value v))
    | some _ => none
  | name :: names, entries =>
    match entries.lookup name with
    | none => (assign v names []).map fun es => entries.set name (.table .dotted es)
    | some (.table .headed _) => none
    | some (.table origin es) => (assign v names es).map fun es => entries.set name (.table origin es)
    | some _ => none

/-- Opens the table of a header. -/
def openTable : List Text → Entries → Option Entries
  | [], _ => none
  | [name], entries =>
    match entries.lookup name with
    | none => some (entries.set name (.table .headed []))
    | some (.table .implied es) => some (entries.set name (.table .headed es))
    | some _ => none
  | name :: names, entries =>
    match entries.lookup name with
    | none => (openTable names []).map fun es => entries.set name (.table .implied es)
    | some (.table origin es) => (openTable names es).map fun es => entries.set name (.table origin es)
    | some (.tables closed es) => (openTable names es).map fun es => entries.set name (.tables closed es)
    | some (.value _) => none

/-- Opens the next table of the list that a doubled header names. -/
def openNext : List Text → Entries → Option Entries
  | [], _ => none
  | [name], entries =>
    match entries.lookup name with
    | none => some (entries.set name (.tables [] []))
    | some (.tables closed es) =>
      some (entries.set name (.tables (closed ++ [.table (finishAll es)]) []))
    | some _ => none
  | name :: names, entries =>
    match entries.lookup name with
    | none => (openNext names []).map fun es => entries.set name (.table .implied es)
    | some (.table origin es) => (openNext names es).map fun es => entries.set name (.table origin es)
    | some (.tables closed es) => (openNext names es).map fun es => entries.set name (.tables closed es)
    | some (.value _) => none

/-- Changes the entries of the open table that a header names. -/
def within (change : Entries → Option Entries) : List Text → Entries → Option Entries
  | [], entries => change entries
  | name :: names, entries =>
    match entries.lookup name with
    | some (.table origin es) => (within change names es).map fun es => entries.set name (.table origin es)
    | some (.tables closed es) =>
      (within change names es).map fun es => entries.set name (.tables closed es)
    | _ => none

end Entries

end Marginalia.Toml
