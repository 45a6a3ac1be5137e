import Marginalia.Markdown.Block
import Marginalia.Markdown.Info
import Marginalia.Markdown.Punctuation

/-!
# Documents as HTML

Blocks are written in document order onto a sheet. A new line is started before and after most
blocks, but never at the top of the sheet. The sheet also remembers which quotes are open and which
heading anchors have been used.
-/
namespace Marginalia.Markdown

/-- The output so far, the last character first, and what later output depends on. -/
structure Sheet where
  out : Text := []
  quotes : Quotes := {}
  /-- The heading anchors used, each with the number of the last variant made of it. -/
  anchors : List (Text × Nat) := []

namespace Html

abbrev Writing := StateM Sheet

def put (t : Text) : Writing Unit := modify fun s => { s with out := t.reverse ++ s.out }

/-- Starts a new line unless the sheet is empty. -/
def newLine : Writing Unit := modify fun s => if s.out.isEmpty then s else { s with out := '\n' :: s.out }

def escapeChar (c : Char) : Text :=
  if c = '&' then "&amp;"
  else if c = '<' then "&lt;"
  else if c = '>' then "&gt;"
  else if c = '"' then "&quot;"
  else [c]

def escape (t : Text) : Text := t.flatMap escapeChar

/-- The written form of an address. -/
def escapeAddress (t : Text) : Text := escape (Entity.expand t)

def written (a : Text × Text) : Text := " " ++ a.1 ++ "=\"" ++ a.2 ++ "\""

def tag (name : Text) (attributes : List (Text × Text)) : Text :=
  "<" ++ name ++ attributes.flatMap written ++ ">"

def closeTag (name : Text) : Text := "</" ++ name ++ ">"

/-- Whether an address stays within the site: it is empty, a fragment, or starts with a slash or
dots and a slash. -/
def isRelative (t : Text) : Bool :=
  match t with
  | [] => true
  | '#' :: _ => true
  | ['/'] => true
  | '/' :: c :: _ => c != '/'
  | _ => Text.opens "./" t || Text.opens "../" t

/-- Drops backslashes; of two in a row the second stays. -/
def dropEscapes (escaped : Bool) : Text → Text
  | [] => []
  | c :: cs =>
    let now := if c = '\\' then !escaped else escaped
    if now && c == '\\' then dropEscapes now cs else c :: dropEscapes now cs

/-- Writes text with its punctuation set. -/
def putText (t : Text) : Writing Unit := do
  let (out, quotes) := Punctuation.set (← get).quotes (escape t)
  put out
  modify fun s => { s with quotes }

/-- Writes code on lines of its own. -/
def putCode (info literal : Text) : Writing Unit := do
  let mark : List (Text × Text) :=
    if info.isEmpty then [] else [("class", "language-" ++ Info.language info)]
  newLine
  put ("<pre>" ++ tag "code" mark ++ escape literal ++ "</code></pre>")

mutual

def putSpan : Span → Writing Unit
  | .text t => putText t
  | .code t => put ("<code>" ++ escape t ++ "</code>")
  | .codeLines info literal => do putCode info literal; newLine
  | .markup t => put t
  | .lineBreak => put "<br>\n"
  | .emphasis cs => do put "<em>"; putSpans cs; put "</em>"
  | .strong cs => do put "<strong>"; putSpans cs; put "</strong>"
  | .deleted cs => do put "<del>"; putSpans cs; put "</del>"
  | .subscript t => put ("<sub>" ++ dropEscapes false t ++ "</sub>")
  | .superscript t => put ("<sup>" ++ dropEscapes false t ++ "</sup>")
  | .math t => put ("<span class=\"math inline\">\\(" ++ escape t ++ "\\)</span>")
  | .link target title cs => do
    let href : Text × Text := ("href", escapeAddress target)
    let external : List (Text × Text) :=
      if isRelative target then [] else [("target", "_blank")]
    let titled : List (Text × Text) := if title.isEmpty then [] else [("title", escape title)]
    put (tag "a" (href :: external ++ titled))
    putSpans cs
    put "</a>"
  | .image source title? alternative => do
    put ("<img src=\"" ++ escapeAddress source ++ "\" alt=\"")
    putText alternative
    match title? with
    | some title => put ("\" title=\"" ++ escape title)
    | none => pure ()
    put "\" />"

def putSpans : List Span → Writing Unit
  | [] => pure ()
  | s :: ss => do putSpan s; putSpans ss

end

/-- An anchor that no heading has used yet: the wanted one, or else one with a number behind it. The
fuel bounds the number of used anchors that are tried. -/
def uniqueAnchor (used : List (Text × Nat)) : Nat → Text → Text × List (Text × Nat)
  | 0, id => (id, used)
  | fuel + 1, id =>
    match used.lookup id with
    | none => (id, (id, 0) :: used)
    | some count =>
      let numbered := id ++ "-" ++ Text.ofNat (count + 1)
      match used.lookup numbered with
      | none => (numbered, (numbered, 0) :: (id, count + 1) :: used)
      | some _ => uniqueAnchor used fuel (id ++ "-1")

/-- Takes an anchor for a heading. -/
def takeAnchor (id : Text) : Writing Text := do
  let (unique, anchors) := uniqueAnchor (← get).anchors ((← get).anchors.length + 1) id
  modify fun s => { s with anchors }
  return unique

/-- Where a block stands. -/
inductive Parent where
  | document
  | quote
  /-- An item of a list: whether the list is tight, and whether the item is a term. -/
  | item (tight term : Bool)
deriving DecidableEq

def Parent.isItem : Parent → Bool
  | .item _ _ => true
  | _ => false

/-- Whether a paragraph starts a new line behind a block. -/
def separates : Block (List Span) → Bool
  | .table _ _ caption? => caption?.isSome
  | .math _ => false
  | _ => true

def alignName : Align → Text
  | .none => []
  | .left => "left"
  | .right => "right"
  | .center => "center"

def putCells (header first : Bool) : List (Cell (List Span)) → Writing Unit
  | [] => pure ()
  | c :: cs => do
    let name : Text := if header then "th" else "td"
    let align : List (Text × Text) :=
      if c.align = .none then [] else [("align", alignName c.align)]
    let columns : List (Text × Text) :=
      if c.columns = 0 then [] else [("colspan", Text.ofNat c.columns)]
    if first then newLine
    put (tag name (align ++ columns))
    putSpans c.content
    put (closeTag name)
    newLine
    putCells header false cs

def putRow (header : Bool) (cells : List (Cell (List Span))) : Writing Unit := do
  newLine
  put "<tr>"
  putCells header true cells
  put "</tr>"
  newLine

def putGroup (group : RowGroup × List (List (Cell (List Span)))) : Writing Unit := do
  let name : Text := if group.1 = .body then "tbody" else "tfoot"
  newLine
  put (tag name [])
  if group.1 = .body ∧ group.2.isEmpty then newLine
  group.2.forM (putRow false)
  put (closeTag name)
  newLine

/-- Writes a table without its caption. -/
def putTable (header? : Option (List (Cell (List Span))))
    (groups : List (RowGroup × List (List (Cell (List Span))))) : Writing Unit := do
  newLine
  put "<table>"
  match header? with
  | some cells => do
    newLine
    put "<thead>"
    putRow true cells
    put "</thead>"
    newLine
  | none => pure ()
  groups.forM putGroup
  put "</table>"
  newLine

def listName : ListStyle → Text
  | .bullet => "ul"
  | .numbered => "ol"
  | .definition => "dl"

def itemName (style : ListStyle) (term : Bool) : Text :=
  if term then "dt" else if style = .definition then "dd" else "li"

mutual

/-- Writes a block that stands behind the block `before?`, if any; `last` says whether no block
follows. -/
def putBlock (parent : Parent) (before? : Option (Block (List Span))) (last : Bool) :
    Block (List Span) → Writing Unit
  | .heading level anchor special content => do
    let id : List (Text × Text) ←
      if anchor.isEmpty then pure [] else do pure [("id", ← takeAnchor anchor)]
    let name := "h" ++ Text.ofNat level
    let mark : List (Text × Text) := if special then [("class", "special")] else []
    newLine
    put (tag name (mark ++ id))
    putSpans content
    put (closeTag name)
    if parent.isItem && last then pure () else newLine
  | .paragraph content => do
    match parent with
    | .item true _ => putSpans content
    | .item _ true => putSpans content
    | _ => do
      if before?.any separates || (before?.isNone && parent == .quote) then newLine
      put "<p>"
      putSpans content
      put "</p>"
      if parent.isItem && last then pure () else newLine
  | .code info literal => do
    putCode info literal
    if parent.isItem then pure () else newLine
  | .markup literal => do newLine; put literal; newLine
  | .rule => do newLine; put "<hr>"; newLine
  | .quote content => do
    newLine
    put "<blockquote>"
    putBlocks .quote none content
    put "</blockquote>"
    newLine
  | .list style tight items => do
    newLine
    match parent with
    | .item true _ => newLine
    | _ => pure ()
    put (tag (listName style) [])
    newLine
    putItems style tight true items
    put (closeTag (listName style))
    if parent.isItem && last then pure () else newLine
  | .table header? groups caption? =>
    match caption? with
    | none => putTable header? groups
    | some caption => do
      put (tag "figure" (if caption.anchor.isEmpty then [] else [("id", caption.anchor)]))
      putTable header? groups
      put "<figcaption>"
      putSpans caption.content
      put "</figcaption>\n</figure>\n"
  | .math literal => put ("<p><span class=\"math display\">\\[" ++ escape literal ++ "\\]</span></p>")

def putBlocks (parent : Parent) (before? : Option (Block (List Span))) :
    List (Block (List Span)) → Writing Unit
  | [] => pure ()
  | b :: bs => do
    putBlock parent before? bs.isEmpty b
    putBlocks parent (some b) bs

def putItems (style : ListStyle) (tight first : Bool) :
    List (Bool × List (Block (List Span))) → Writing Unit
  | [] => pure ()
  | (term, content) :: items => do
    if !first && !tight && style != .definition then newLine
    let name := itemName style term
    put (tag name [])
    putBlocks (.item tight term) none content
    put (closeTag name)
    newLine
    putItems style tight false items

end

/-- A document as HTML. -/
def render (blocks : List (Block (List Span))) : Text :=
  ((putBlocks .document none blocks).run {}).2.out.reverse

end Html

end Marginalia.Markdown
