import Marginalia.Text.Basic

/-!
# JSON

Values are written over several lines with an indentation of two spaces. Inside a string the
characters of markup and the two Unicode line separators are escaped too, so that the output may
stand inside a page.
-/
namespace Marginalia

/-- A JSON value. The fields of a record keep their order. -/
inductive Json where
  | null
  | text (t : Text)
  | number (n : Int)
  | list (items : List Json)
  | record (fields : List (Text × Json))

namespace Json

def escapeChar (c : Char) : Text :=
  let n := c.toNat
  if c = '"' ∨ c = '\\' then ['\\', c]
  else if n = 8 then "\\b"
  else if n = 9 then "\\t"
  else if n = 10 then "\\n"
  else if n = 12 then "\\f"
  else if n = 13 then "\\r"
  else if n < 0x20 ∨ c = '<' ∨ c = '>' ∨ c = '&' ∨ n = 0x2028 ∨ n = 0x2029 then
    "\\u" ++ Text.hex 4 n
  else [c]

def quote (t : Text) : Text := "\"" ++ t.flatMap escapeChar ++ "\""

/-- A new line at a depth of nesting. -/
def lineAt (depth : Nat) : Text := '\n' :: List.replicate (2 * depth) ' '

mutual

/-- The written form of a value at a depth of nesting. -/
def renderAt (depth : Nat) : Json → Text
  | .null => "null"
  | .text t => quote t
  | .number n => Text.ofInt n
  | .list [] => "[]"
  | .list (item :: items) =>
    "[" ++ lineAt (depth + 1) ++ renderAt (depth + 1) item ++ renderItems (depth + 1) items
      ++ lineAt depth ++ "]"
  | .record [] => "\x7b\x7d"
  | .record ((name, value) :: fields) =>
    "\x7b" ++ lineAt (depth + 1) ++ quote name ++ ": " ++ renderAt (depth + 1) value
      ++ renderFields (depth + 1) fields ++ lineAt depth ++ "\x7d"

/-- The items behind the first one. -/
def renderItems (depth : Nat) : List Json → Text
  | [] => []
  | item :: items => "," ++ lineAt depth ++ renderAt depth item ++ renderItems depth items

/-- The fields behind the first one. -/
def renderFields (depth : Nat) : List (Text × Json) → Text
  | [] => []
  | (name, value) :: fields =>
    "," ++ lineAt depth ++ quote name ++ ": " ++ renderAt depth value ++ renderFields depth fields

end

/-- The written form of a value, with a line feed at its end. -/
def render (j : Json) : Text := renderAt 0 j ++ "\n"

def ofList {α : Type} (f : α → Json) (xs : List α) : Json := .list (xs.map f)

/-- The JSON form of a list that may be missing. -/
def ofList? {α : Type} (f : α → Json) : Option (List α) → Json
  | none => .null
  | some xs => ofList f xs

end Json

end Marginalia
