import Marginalia.Anchor
import Marginalia.Segment.Basic
import Marginalia.Text.Quoted
import Marginalia.Text.Width

/-!
# Tables on a terminal

A grid is drawn with rounded box lines. A column is as wide as its widest cell or its title, measured
in terminal columns, with a blank on each side. A cell of several lines makes its row that many lines
high. Titles stand left; the cells of a column stand on the side that the column names.
-/
namespace Marginalia

/-- The side on which the cells of a column stand. -/
inductive Align where
  | left
  | right
deriving DecidableEq, Repr

structure Column where
  title : Text
  align : Align := .left
deriving DecidableEq, Repr

/-- A table; each row has a cell for each column. -/
structure Grid where
  columns : List Column
  rows : List (List Text)
deriving Repr

namespace Grid

/-- What a terminal control sequence is doing. -/
inductive Control where
  /-- Its kind is not known yet; `fresh` says that nothing stands behind the escape character. -/
  | opened (fresh : Bool)
  /-- It sets a style, and the letter m ends it. -/
  | style
  /-- It is a command, and a backslash ends it, unless the awaited characters follow and make it a
  link. -/
  | command (awaited : Text)
  /-- It is a link, and a bell ends it or a backslash behind an escape character. -/
  | link (escaped : Bool)
deriving DecidableEq, Repr

/-- The control sequence behind a character, if the character does not end it. -/
def Control.next? (c : Char) : Control → Option Control
  | .opened fresh =>
    if c = '[' then some .style
    else if c = ']' then some (.command (if fresh then ['8', ';'] else []))
    else some (.opened false)
  | .style => if c = 'm' then none else some .style
  | .command awaited =>
    if c = '\\' then none
    else
      match awaited with
      | [] => some (.command [])
      | [d] => some (if c = d then .link false else .command [])
      | d :: ds => some (.command (if c = d then ds else []))
  | .link escaped =>
    if c = '\x07' ∨ (escaped ∧ c = '\\') then none else some (.link (c == '\x1b'))

/-- The characters that a terminal shows, given the control sequence in front of them. -/
def shownFrom : Option Control → Text → Text
  | _, [] => []
  | some k, c :: cs => shownFrom (k.next? c) cs
  | none, c :: cs => if c = '\x1b' then shownFrom (some (.opened true)) cs else c :: shownFrom none cs

/-- The number of columns that a line takes; control sequences take none. -/
def lineWidth (line : Text) : Nat := (shownFrom none line).width

/-- A line after its carriage returns: each piece is written over the start of what stands there. -/
def settle (line : Text) : Text :=
  (Text.splitAtChar '\r' line).foldl (fun shown piece => piece ++ shown.drop piece.length) []

/-- A carriage return in front of a line feed is dropped. -/
def joinLineEnds : Text → Text
  | '\r' :: '\n' :: cs => '\n' :: joinLineEnds cs
  | c :: cs => c :: joinLineEnds cs
  | [] => []

/-- A tab is shown as four blanks. -/
def expandTab (c : Char) : Text := if c = '\t' then "    " else [c]

def cellLines (cell : Text) : List Text :=
  (Text.splitAtChar '\n' (joinLineEnds (cell.flatMap expandTab))).map settle

/-- A line filled up to a width on the far side of its alignment. Blanks at that side do not count. -/
def fill (a : Align) (width : Nat) (line : Text) : Text :=
  let blank (c : Char) : Bool := c == ' '
  match a with
  | .left =>
    let t := Text.trimEnd blank line
    t ++ List.replicate (width - lineWidth t) ' '
  | .right =>
    let t := Text.trimStart blank line
    List.replicate (width - lineWidth t) ' ' ++ t

/-- The width of the widest line that a terminal shows of a cell. A line feed inside a control sequence
starts no line there. -/
def cellWidth (cell : Text) : Nat :=
  (Text.splitAtChar '\n' (shownFrom none (Text.join "\n" (cellLines cell)))).foldl
    (fun w line => max w line.width) 0

/-- The width of a column: its number and the column itself. -/
def columnWidth (g : Grid) (k : Nat) (c : Column) : Nat :=
  g.rows.foldl (fun w row => max w (cellWidth (row.getD k []))) (lineWidth c.title)

def widths (g : Grid) : List Nat := g.columns.mapIdx fun k c => g.columnWidth k c

/-- A horizontal rule with the given corners and crossings. -/
def rule (start middle stop : Text) (ws : List Nat) : Text :=
  start ++ Text.join middle (ws.map fun w => List.replicate (w + 2) '─') ++ stop ++ "\n"

def line (cells : List Text) : Text := "│ " ++ Text.join " │ " cells ++ " │\n"

def titleLine (g : Grid) (ws : List Nat) : Text :=
  line (List.zipWith (fun c w => fill .left w c.title) g.columns ws)

/-- The lines of a row, as many as its highest cell has. -/
def rowLines (g : Grid) (ws : List Nat) (row : List Text) : Text :=
  let cells := row.map cellLines
  let height := cells.foldl (fun h ls => max h ls.length) 0
  (List.range height).flatMap fun i =>
    line (List.zipWith (fun (c, w) ls => fill c.align w (ls.getD i [])) (g.columns.zip ws) cells)

def render (g : Grid) : Text :=
  let ws := g.widths
  rule "╭" "┬" "╮" ws ++ g.titleLine ws ++ rule "├" "┼" "┤" ws ++ g.rows.flatMap (g.rowLines ws)
    ++ rule "╰" "┴" "╯" ws

/-- The title of an entry, indented by its heading level. -/
def indented (e : Entry) : Text := List.replicate (2 * (Tag.level e.tag).toNat) ' ' ++ e.title

def ofEntries (entries : List Entry) : Grid where
  columns := [{ title := "TITLE" }, { title := "SLUG" }, { title := "TAG" }]
  rows := entries.map fun e => [indented e, e.slug, e.tag]

/-- The number of characters that are shown of a segment. -/
def previewLength : Nat := 48

/-- The beginning of a segment on one line. -/
def preview (content : Text) : Text := (Quoted.escape content).take previewLength

def ofSegments (segments : List Segment) : Grid where
  columns := [{ title := "#", align := .right }, { title := "KIND" },
    { title := "LINE", align := .right }, { title := "CONTENT" }]
  rows := segments.mapIdx fun k s =>
    [Text.ofNat k, s.kind.name, Text.ofInt s.line, preview s.content]

end Grid

end Marginalia
