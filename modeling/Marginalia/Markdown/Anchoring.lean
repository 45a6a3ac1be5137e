import Marginalia.Markdown.Block

/-!
# Anchors of headings

The headings of a document get their anchors in document order, wherever they are nested. Headings
below a level limit keep the anchor they have.
-/
namespace Marginalia.Markdown.Block

variable {m : Type → Type} [Monad m] (limit : Int) (anchor : Text → Nat → m Text)

mutual

/-- Replaces the anchor of each heading within the limit by the one issued for its title. -/
def anchored : Block (List Span) → m (Block (List Span))
  | .heading level old special content =>
    if (level : Int) ≤ limit then do
      return .heading level (← anchor (Span.title content) level) special content
    else return .heading level old special content
  | .quote content => do return .quote (← anchoredAll content)
  | .list style tight items => do return .list style tight (← anchoredItems items)
  | .paragraph content => return .paragraph content
  | .code info literal => return .code info literal
  | .markup literal => return .markup literal
  | .rule => return .rule
  | .table header? groups caption? => return .table header? groups caption?
  | .math literal => return .math literal

@[inherit_doc anchored]
def anchoredAll : List (Block (List Span)) → m (List (Block (List Span)))
  | [] => return []
  | b :: bs => do
    let c ← anchored b
    let cs ← anchoredAll bs
    return c :: cs

@[inherit_doc anchored]
def anchoredItems :
    List (Bool × List (Block (List Span))) → m (List (Bool × List (Block (List Span))))
  | [] => return []
  | (term, content) :: items => do
    let c ← anchoredAll content
    let cs ← anchoredItems items
    return (term, c) :: cs

end

structure HeadingInfo where
  level : Nat
  anchor : Text
  title : Text
deriving DecidableEq, Repr

mutual

/-- The headings of a block in document order. -/
def headings : Block (List Span) → List HeadingInfo
  | .heading level anchor _ content => [{ level, anchor, title := Span.title content }]
  | .quote content => headingsOf content
  | .list _ _ items => headingsOfItems items
  | _ => []

@[inherit_doc headings]
def headingsOf : List (Block (List Span)) → List HeadingInfo
  | [] => []
  | b :: bs => headings b ++ headingsOf bs

@[inherit_doc headings]
def headingsOfItems : List (Bool × List (Block (List Span))) → List HeadingInfo
  | [] => []
  | (_, content) :: items => headingsOf content ++ headingsOfItems items

end

end Marginalia.Markdown.Block
