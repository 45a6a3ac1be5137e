import Marginalia.Markdown.Glyph
import Marginalia.Text.Case

/-!
# Link definitions

A line such as `[name]: target "title"` defines the target of links that refer to it by name. It is
no part of the text around it. Names are compared without regard to case, and the last definition of
a name wins.
-/
namespace Marginalia.Markdown

/-- The target of links with a name. -/
structure LinkDefinition where
  name : Text
  target : Text
  title : Text
deriving Repr

namespace LinkDefinition

/-- The definition of a name among those read, the last one first. -/
def find? (definitions : List LinkDefinition) (name : Text) : Option LinkDefinition :=
  definitions.find? (·.name == Text.lower name)

def isGap (c : Char) : Bool := c == ' ' || c == '\t'

/-- The title of a definition, alone at the end of its line, and the text behind it. Without a
closing quote the line is no title. -/
def title? (t : Text) : Option (Text × Text) :=
  match t with
  | q :: body =>
    if (q == '\'' || q == '"' || q == '(') && !body.isEmpty then
      let line := Text.firstLine body
      let trimmed := Text.trimEnd isGap line
      match trimmed.reverse with
      | e :: front =>
        if (e == '\'' || e == '"' || e == ')') && !front.isEmpty then
          some (front.reverse, body.drop line.length)
        else none
      | [] => none
    else none
  | [] => none

/-- What stands in place of a title on the next line that has no closing quote. -/
def unclosedTitle : Text → Text
  | q :: body => if q == '\'' || q == '"' || q == '(' then Text.firstLine body else []
  | [] => []

/-- The target, the title and the rest behind the colon of a definition. -/
def targetAndTitle? (t : Text) : Option (Text × Text × Text) :=
  let opened := Text.dropOpening "<" t
  let word := opened.takeWhile fun c => !(isGap c || c == '\n')
  let isAngled := word.head? = some '<' ∧ word.getLast? = some '>' ∧ word.length < opened.length
  let target := if isAngled then (word.drop 1).dropLast else word
  let behind := (opened.drop word.length).dropWhile isGap
  match behind with
  | [] => some (target, [], [])
  | '\n' :: next =>
    match title? (next.dropWhile isGap) with
    | some (title, rest) => some (target, title, rest)
    | none => some (target, unclosedTitle (next.dropWhile isGap), behind)
  | c :: _ =>
    if c == '\'' || c == '"' || c == '(' then
      (title? behind).map fun (title, rest) => (target, title, rest)
    else none

/-- The name in front of the bracket that closes it, on one line, and the text behind that bracket. A
backslash takes the next character along. -/
def name? : Text → Option (Text × Text)
  | [] => none
  | '\\' :: c :: cs => (name? cs).map fun (name, rest) => ('\\' :: c :: name, rest)
  | c :: cs =>
    if c = ']' then some ([], cs)
    else if c = '\n' then none
    else (name? cs).map fun (name, rest) => (c :: name, rest)

/-- The definition at the front of a text, and the text behind it. -/
def read? (t : Text) : Option (LinkDefinition × Text) :=
  if t.byteLength < 4 then none
  else
    match skipIndent t with
    | '[' :: inner =>
      match name? inner with
      | some (name, ':' :: behind) =>
        if name.isEmpty then none
        else
          let gap := behind.dropWhile isGap
          let start := (Text.dropOpening "\n" gap).dropWhile isGap
          if start.isEmpty then none
          else
            (targetAndTitle? start).map fun (target, title, rest) =>
              ({ name := Text.lower name, target, title }, rest)
      | _ => none
    | _ => none

end LinkDefinition

end Marginalia.Markdown
