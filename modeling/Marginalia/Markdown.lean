import Marginalia.Markdown.Anchoring
import Marginalia.Markdown.Block.Reader
import Marginalia.Markdown.Html

/-!
# Comments as Markdown

A comment is read as a Markdown document, its headings get anchors, and it is written as HTML. A
blank comment gives nothing. Whoever reads and writes documents is given as an engine; this library
has one of its own.
-/
namespace Marginalia.Markdown

/-- Every line end becomes a line feed. -/
def normalizeLines : Text → Text
  | [] => []
  | '\r' :: '\n' :: cs => '\n' :: normalizeLines cs
  | '\r' :: cs => '\n' :: normalizeLines cs
  | c :: cs => c :: normalizeLines cs

/-- The document that a text means. -/
def parse (source : Text) : List (Block (List Span)) :=
  let (blocks, definitions) := Block.read (normalizeLines source)
  Block.mapAll (Span.read definitions) blocks

/-- Whoever reads a text as a document and writes a document as HTML. -/
structure Engine where
  parse : Text → List (Block (List Span))
  print : List (Block (List Span)) → Text

def Engine.standard : Engine where
  parse := Markdown.parse
  print := Html.render

/-- Renders a text. Headings up to the level limit get the anchors issued for them. -/
def Engine.render (e : Engine) {m : Type → Type} [Monad m] (limit : Int)
    (anchor? : Option (Text → Nat → m Text)) (source : Text) : m Text := do
  if source.isBlank then return []
  else
    match anchor? with
    | some anchor => return e.print (← Block.anchoredAll limit anchor (e.parse source))
    | none => return e.print (e.parse source)

end Marginalia.Markdown
