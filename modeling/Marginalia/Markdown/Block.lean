import Marginalia.Markdown.Span

/-!
# Blocks

A document is a list of blocks. Blocks are read before their inline content, so the type of inline
content is a parameter: it is a plain text at first and a list of spans later. Only the caption of a
table is read at once.
-/
namespace Marginalia.Markdown

inductive ListStyle where
  | bullet
  | numbered
  | definition
deriving DecidableEq, Repr

inductive Align where
  | none
  | left
  | right
  | center
deriving DecidableEq, Repr

/-- A table cell. A span of zero columns is not written out. -/
structure Cell (ι : Type) where
  align : Align
  columns : Nat
  content : ι
deriving Repr

inductive RowGroup where
  | body
  | footer
deriving DecidableEq, Repr

/-- The caption of a table, with the anchor of the table, which is empty if it has none. -/
structure Caption where
  anchor : Text
  content : List Span
deriving Repr

/-- A block of a document. -/
inductive Block (ι : Type) where
  /-- A heading with its anchor, which is empty if it has none. A special heading stands outside
  the numbering. -/
  | heading (level : Nat) (anchor : Text) (special : Bool) (content : ι)
  | paragraph (content : ι)
  | code (info : Text) (literal : Text)
  | markup (literal : Text)
  | rule
  | quote (content : List (Block ι))
  /-- A list with its items; each item says whether it is the term of a definition. -/
  | list (style : ListStyle) (tight : Bool) (items : List (Bool × List (Block ι)))
  | table (header? : Option (List (Cell ι))) (groups : List (RowGroup × List (List (Cell ι))))
      (caption? : Option Caption)
  | math (literal : Text)
deriving Repr

namespace Cell

def map {ι κ : Type} (f : ι → κ) (c : Cell ι) : Cell κ :=
  { align := c.align, columns := c.columns, content := f c.content }

end Cell

namespace Block

variable {ι κ : Type}

mutual

/-- Applies a function to the inline content of a block. -/
def map (f : ι → κ) : Block ι → Block κ
  | .heading level anchor special content => .heading level anchor special (f content)
  | .paragraph content => .paragraph (f content)
  | .code info literal => .code info literal
  | .markup literal => .markup literal
  | .rule => .rule
  | .quote content => .quote (mapAll f content)
  | .list style tight items => .list style tight (mapItems f items)
  | .table header? groups caption? =>
    .table (header?.map fun row => row.map (Cell.map f))
      (groups.map fun (group, rows) => (group, rows.map fun row => row.map (Cell.map f))) caption?
  | .math literal => .math literal

@[inherit_doc map]
def mapAll (f : ι → κ) : List (Block ι) → List (Block κ)
  | [] => []
  | b :: bs => map f b :: mapAll f bs

@[inherit_doc map]
def mapItems (f : ι → κ) : List (Bool × List (Block ι)) → List (Bool × List (Block κ))
  | [] => []
  | (term, content) :: items => (term, mapAll f content) :: mapItems f items

end

end Block

end Marginalia.Markdown
