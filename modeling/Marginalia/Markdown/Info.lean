import Marginalia.Markdown.Entity

/-!
# Info texts

The text behind the marks that open a block of code says what the code is written in. It stands in
braces, or else it is the rest of the line.
-/
namespace Marginalia.Markdown.Info

/-- The info text at the front of a text, and the text behind it. Braces have to close on the same
line. -/
def read? (t : Text) : Option (Text × Text) :=
  match t with
  | '\x7b' :: inner =>
    let body := inner.takeWhile fun c => c != '\x7d' && c != '\n'
    match inner.drop body.length with
    | '\x7d' :: rest => some (Text.trimEnd isBlankChar (Text.trimStart isBlankChar body), rest)
    | _ => none
  | _ => some (Text.firstLine t, t.drop (Text.firstLine t).length)

/-- The info text as it is meant. Escapes count only beside an entity or a lone ampersand. -/
def meant (info : Text) : Text := if info.contains '&' then Entity.expandEscaped info else info

/-- The name of the language, which is the first word of an info text. -/
def language (info : Text) : Text := info.takeWhile fun c => c != ' ' && c != '\t'

end Marginalia.Markdown.Info
