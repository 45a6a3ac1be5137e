import Marginalia.Markdown.Block.Leaf
import Marginalia.Markdown.Span.Reader

/-!
# Tables

A table is a line of cells, a line that underlines each column with hyphens, and further lines of
cells. Colons in the underline give the alignment of a column. A header that looks like an underline
is one, and the table then has no header. A line of equals signs opens the footer, and lines right
behind the table may give it a caption.
-/
namespace Marginalia.Markdown.Block

/-- Number of bars that no backslash escapes. -/
def countBars (marks : List (Char × Bool)) : Nat := marks.countP fun (c, escaped) => c == '|' && !escaped

/-- The length of a header, which ends before the first line feed outside code, and its characters
outside code, each with whether a backslash escapes it. -/
def headerMarks (escaped : Bool) (t : Text) : Nat × List (Char × Bool) :=
  match t with
  | [] => (0, [])
  | c :: cs =>
    if c = '\n' then (0, [])
    else
      let code := if c = Span.backquote then ((Span.codeSpan? (c :: cs)).map (·.1)).getD 1 else 1
      let (n, marks) := headerMarks (c == '\\' && !escaped) (cs.drop (code - 1))
      (n + 1 + (code - 1), (c, escaped) :: marks)
termination_by t.length
decreasing_by simp only [List.length_cons, List.length_drop]; omega

/-- The number of columns of a header, from its text and its characters outside code, or none if it
has no bar. Bars at the ends of the header do not separate columns. -/
def columnCount? (header : Text) (marks : List (Char × Bool)) : Option Nat :=
  let bars := countBars marks
  if bars = 0 then none
  else
    let trimmed := Text.trimEnd (fun c => c == ' ' || c == '\n') header
    let leading := if header.head? = some '|' then 1 else 0
    let trailing :=
      match (withEscapes trimmed).reverse with
      | (c, escaped) :: _ => if c == '|' && !escaped && 2 < Text.byteLength trimmed then 1 else 0
      | [] => 0
    some (bars + 1 - leading - trailing)

/-- The alignment that colons on the two sides of an underline give. -/
def alignOf (left right : Bool) : Align :=
  if left && right then .center else if left then .left else if right then .right else .none

/-- The alignments of the columns that a line underlines, and the text behind the line. The fuel
bounds the number of columns. -/
def underlines? (count : Nat) : Nat → List Align → Text → Option (List Align × Text)
  | 0, _, _ => none
  | fuel + 1, columns, t =>
    let finish (columns : List Align) (rest : Text) : Option (List Align × Text) :=
      if columns.length = count then some (columns.reverse, rest) else none
    match t with
    | [] => finish columns []
    | '\n' :: rest => finish columns rest
    | _ =>
      let left := t.head? = some ':'
      let t₁ := if left then t.drop 1 else t
      let hyphens := (t₁.takeWhile (· == '-')).length
      let t₂ := t₁.drop hyphens
      let right := t₂.head? = some ':'
      let t₃ := skipChar ' ' (if right then t₂.drop 1 else t₂)
      let marks := hyphens + (if left then 1 else 0) + (if right then 1 else 0)
      let columns := alignOf left right :: columns
      match t₃ with
      | [] => none
      | c :: cs =>
        if marks < 1 ∨ count < columns.length then none
        else if c = '|' then
          let rest := skipChar ' ' cs
          if columns.length = count ∧ rest.head?.any (· ≠ '\n') then none
          else underlines? count fuel columns rest
        else if columns.length < count ∨ c ≠ '\n' then none
        else finish columns cs

/-- A table header: its text, which is missing if the table starts with the underline, the alignments
of its columns, and the text behind it. -/
def tableHeader? (t : Text) : Option (Option Text × List Align × Text) := do
  let (n, marks) := headerMarks false t
  let count ← columnCount? (t.take n) marks
  let isUnderline := marks.all fun (c, _) => c == '-' || c == ' ' || c == ':' || c == '|'
  let isEmpty := marks.all fun (c, _) => c == ' ' || c == '|'
  let bare := isUnderline && !isEmpty
  let start := if bare then t else t.drop (n + 1)
  if start.isEmpty then none
  else
    let marks := skipChar ' ' (Text.dropOpening "|" start)
    let (columns, rest) ← underlines? count (marks.length + 1) [] marks
    return (if bare then none else some (t.take (n + 1)), columns, rest)

/-- The length of a cell up to the bar or line feed that ends it. A code span at its front may hold
bars. -/
def cellLength (t : Text) : Nat :=
  let code := if t.head? = some Span.backquote then ((Span.codeSpan? t).map (·.1)).getD 0 else 0
  let behind := (withEscapes t).drop code
  let n := code + (behind.takeWhile fun (c, escaped) => (c != '|' || escaped) && c != '\n').length
  min n t.length

/-- The cells of a row. Further bars behind a cell let it span as many columns; the empty cells that
this leaves are dropped. The argument `spare` counts them. -/
def rowCells (spare : Nat) : List Align → Text → List (Cell Text)
  | [], _ => []
  | aligns, [] => aligns.map fun a => { align := a, columns := 0, content := [] }
  | a :: aligns, t =>
    let start := skipChar ' ' t
    let n := cellLength start
    let content := Text.trimEnd (· == ' ') (start.take n)
    let bars := ((start.drop n).takeWhile (· == '|')).length
    let columns := if bars < 2 then 0 else bars
    let rest := start.drop (n + bars)
    let cell : Cell Text := { align := a, columns, content }
    if content.isEmpty ∧ 0 < spare then
      rowCells (spare - 1 + (columns - 1)) aligns rest
    else cell :: rowCells (spare + (columns - 1)) aligns rest

def row (columns : List Align) (line : Text) : List (Cell Text) :=
  rowCells 0 columns (skipChar '|' line)

def isFooterLine (line : Text) : Bool :=
  let body := Text.firstLine (skipIndent line)
  0 < countBars (withEscapes body) && (withEscapes body).all fun (c, escaped) => c == '=' || (c == '|' && !escaped)

/-- Appends a row to the last group. -/
def addRow (cells : List (Cell Text)) :
    List (RowGroup × List (List (Cell Text))) → List (RowGroup × List (List (Cell Text)))
  | [] => [(.body, [cells])]
  | [(group, rows)] => [(group, rows ++ [cells])]
  | g :: gs => g :: addRow cells gs

/-- The row groups of the lines of a table, and the lines behind it. -/
def rowGroups (columns : List Align) (groups : List (RowGroup × List (List (Cell Text)))) :
    List Text → List (RowGroup × List (List (Cell Text))) × List Text
  | [] => (groups, [])
  | line :: lines =>
    if !line.contains '|' then (groups, line :: lines)
    else if isFooterLine line then rowGroups columns (groups ++ [(.footer, [])]) lines
    else rowGroups columns (addRow (row columns line) groups) lines

/-- The anchor at the end of a caption, and the text before it. White space may follow the anchor, and
the end of the caption closes it too. -/
def captionAnchor? (t : Text) : Option (Text × Text) :=
  match Text.cut? "\x7b#" t with
  | none => none
  | some (before, behind) =>
    let anchor := behind.takeWhile (· ≠ '\x7d')
    if !before.isEmpty ∧ !anchor.isEmpty ∧ (behind.drop (anchor.length + 1)).all isBlankChar then
      some (before, anchor)
    else none

/-- The lines of a caption: all up to a blank one, and that one too. -/
def captionLines : List Text → List Text × List Text
  | [] => ([], [])
  | line :: lines =>
    if startsBlank line then ([line], lines)
    else
      let (caption, rest) := captionLines lines
      (line :: caption, rest)

/-- A caption and the text behind it. The argument `readInline` reads inline content. -/
def caption? (readInline : Text → List Span) (t : Text) : Option (Caption × Text) :=
  (Text.dropOpening? "Table: " t).map fun behind =>
    let (lines, rest) := captionLines (linesOf behind)
    let (content, anchor) := (captionAnchor? lines.flatten).getD (lines.flatten, [])
    ({ anchor, content := readInline content }, rest.flatten)

/-- A table with the caption behind it. The argument `readInline` reads inline content. -/
def table? (readInline : Text → List Span) (t : Text) : Option (Block Text × Text) :=
  (tableHeader? t).map fun (header?, columns, rest) =>
    let (groups, behind) := rowGroups columns [(.body, [])] (linesOf rest)
    let header? := header?.map (row columns)
    match caption? readInline behind.flatten with
    | some (caption, rest) => (.table header? groups (some caption), rest)
    | none => (.table header? groups none, behind.flatten)

end Marginalia.Markdown.Block
