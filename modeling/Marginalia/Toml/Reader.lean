import Marginalia.Toml.Definition
import Marginalia.Toml.Number
import Marginalia.Toml.Token

/-!
# Reading a configuration file

A file is a sequence of lines, each of which opens a table, defines a key or is empty. The lines are
read first; the definitions are then carried out in order, each in the table opened last.
-/
namespace Marginalia.Toml

/-- The next item of a list, or the text behind its bracket. Items are divided by commas, of which one
may stand at the end. -/
def nextItem? (first : Bool) (t : Text) : Option (Bool × Text) := do
  let ended (t : Text) : Bool × Text :=
    match t with
    | ']' :: rest => (true, rest)
    | t => (false, t)
  match ← skipLines? t with
  | ',' :: rest => if first then none else return ended (← skipLines? rest)
  | rest =>
    let found := ended rest
    if found.1 || first then return found else none

/-- The next field of a table on one line, or the text behind its brace. -/
def nextField? (first : Bool) (t : Text) : Option (Bool × Text) :=
  match skipBlanks t with
  | '}' :: rest => some (true, rest)
  | ',' :: rest => if first then none else some (false, skipBlanks rest)
  | rest => if first then some (false, rest) else none

/-- The key of a definition and the text from its value on. -/
def definedKey? (t : Text) : Option (List Text × Text) := do
  let (key, rest) ← key? t
  match rest with
  | '=' :: rest => return (key, skipBlanks rest)
  | _ => none

/-- The table that definitions make. -/
def tableOf? (definitions : List (List Text × Value)) : Option Value := do
  let entries ← definitions.foldlM (fun es (key, v) => Entries.assign v key es) []
  return .table (finishAll entries)

mutual

def value? (t : Text) : Option (Value × Text) :=
  match t with
  | '[' :: t => (items? true t).map fun (vs, rest) => (.array vs, rest)
  | '{' :: t =>
    match fields? true t with
    | none => none
    | some (definitions, rest) => (tableOf? definitions).map fun v => (v, rest)
  | 't' :: 'r' :: 'u' :: 'e' :: t => some (.boolean true, t)
  | 'f' :: 'a' :: 'l' :: 's' :: 'e' :: t => some (.boolean false, t)
  | '"' :: _ | '\'' :: _ => (string? t).map fun (s, rest) => (.text s, rest)
  | t => number? t
termination_by (t.length, 0)
decreasing_by all_goals simp_all [Prod.lex_def]

/-- The items of a list, from behind its bracket or an item on. -/
def items? (first : Bool) (t : Text) : Option (List Value × Text) :=
  match nextItem? first t with
  | none => none
  | some (true, rest) => some ([], rest)
  | some (false, item) =>
    if _h : item.length ≤ t.length then
      match value? item with
      | none => none
      | some (v, rest) =>
        if _h : rest.length < t.length then (items? false rest).map fun (vs, r) => (v :: vs, r)
        else none
    else none
termination_by (t.length, 1)
decreasing_by all_goals (simp [Prod.lex_def]; omega)

/-- The definitions of a table on one line, from behind its brace or a definition on. -/
def fields? (first : Bool) (t : Text) : Option (List (List Text × Value) × Text) :=
  match nextField? first t with
  | none => none
  | some (true, rest) => some ([], rest)
  | some (false, field) =>
    match definedKey? field with
    | none => none
    | some (key, written) =>
      if _h : written.length ≤ t.length then
        match value? written with
        | none => none
        | some (v, rest) =>
          if _h : rest.length < t.length then
            (fields? false rest).map fun (ds, r) => ((key, v) :: ds, r)
          else none
      else none
termination_by (t.length, 1)
decreasing_by all_goals (simp [Prod.lex_def]; omega)

end

/-- What a line says. -/
inductive Line where
  | empty
  | header (path : List Text)
  | nextHeader (path : List Text)
  | definition (key : List Text) (v : Value)

/-- What a line says, and the text behind it. -/
def line? (t : Text) : Option (Line × Text) :=
  match skipBlanks t with
  | [] => some (.empty, [])
  | '#' :: rest => some (.empty, '#' :: rest)
  | '\n' :: rest => some (.empty, '\n' :: rest)
  | '\r' :: rest => some (.empty, '\r' :: rest)
  | '[' :: '[' :: rest => do
    let (path, rest) ← key? (skipBlanks rest)
    match rest with
    | ']' :: ']' :: rest => return (.nextHeader path, rest)
    | _ => none
  | '[' :: rest => do
    let (path, rest) ← key? (skipBlanks rest)
    match rest with
    | ']' :: rest => return (.header path, rest)
    | _ => none
  | t => do
    let (key, rest) ← definedKey? t
    let (v, rest) ← value? rest
    return (.definition key v, rest)

def lines? (t : Text) : Option (List Line) :=
  match line? t with
  | none => none
  | some (line, rest) =>
    match skipComment? (skipBlanks rest) with
    | none => none
    | some [] => some [line]
    | some (c :: rest) =>
      match newline? (c :: rest) with
      | none => none
      | some next => if _h : next.length < t.length then (lines? next).map (line :: ·) else none
termination_by t.length

/-- A file that is being read: its entries and the header of the table opened last. -/
structure Draft where
  entries : Entries := []
  header : List Text := []

def Draft.apply (d : Draft) : Line → Option Draft
  | .empty => some d
  | .header path => (d.entries.openTable path).map fun entries => { entries, header := path }
  | .nextHeader path => (d.entries.openNext path).map fun entries => { entries, header := path }
  | .definition key v =>
    (d.entries.within (Entries.assign v key) d.header).map fun entries => { d with entries }

/-- The table that a file defines. -/
def parse? (t : Text) : Option Table := do
  let d ← (← lines? t).foldlM Draft.apply {}
  return finishAll d.entries

end Marginalia.Toml
