import Marginalia.Text.Space

/-!
# Spans

The inline content of a paragraph, a heading or a table cell is a list of spans: runs of text, code,
raw markup, and spans with content of their own such as emphasis and links.
-/
namespace Marginalia.Markdown

/-- A piece of inline content. -/
inductive Span where
  | text (literal : Text)
  | code (literal : Text)
  /-- Code that takes lines of its own inside the text around it. -/
  | codeLines (info literal : Text)
  /-- Markup that is passed through. -/
  | markup (literal : Text)
  | lineBreak
  | emphasis (content : List Span)
  | strong (content : List Span)
  | deleted (content : List Span)
  | subscript (literal : Text)
  | superscript (literal : Text)
  | math (literal : Text)
  | link (target title : Text) (content : List Span)
  | image (source : Text) (title? : Option Text) (alternative : Text)
deriving Repr

namespace Span

mutual

/-- The words of a span: its text and its code, without markup, scripts and formulas. -/
def words : Span → Text
  | .text t => t
  | .code t => t
  | .emphasis cs => wordsOf cs
  | .strong cs => wordsOf cs
  | .deleted cs => wordsOf cs
  | .link _ _ cs => wordsOf cs
  | .image _ _ t => t
  | _ => []

@[inherit_doc words]
def wordsOf : List Span → Text
  | [] => []
  | s :: ss => words s ++ wordsOf ss

end

/-- The words of inline content on one line, with single spaces between them. -/
def title (content : List Span) : Text := Text.join " " (Text.words (wordsOf content))

end Span

end Marginalia.Markdown
