import Marginalia.Markdown.Block.Table
import Marginalia.Markdown.Definition

/-!
# Reading blocks

A text is read block by block. Quotes and list items are stripped of their marks and read again, to
a fixed depth. Link definitions are collected on the way.
-/
namespace Marginalia.Markdown.Block

/-- Reading collects link definitions, the last one first. -/
abbrev Reading := StateM (List LinkDefinition)

/-- How deep blocks nest; what lies deeper is dropped. -/
def maxDepth : Nat := 64

/-- The number of characters of a quote mark. -/
def quoteMark (t : Text) : Nat :=
  let n := countUpTo 3 ' ' t
  match t.drop n with
  | '>' :: ' ' :: _ => n + 2
  | '>' :: _ => n + 1
  | _ => 0

/-- The number of characters of a bullet, with the blank behind it. -/
def bulletMark (t : Text) : Nat :=
  let n := countUpTo 3 ' ' t
  match t.drop n with
  | c :: d :: _ =>
    if (c == '*' || c == '+' || c == '-') && (d == ' ' || d == '\t') then n + 2 else 0
  | _ => 0

/-- The number of characters of an item number, with the blank behind it. -/
def numberMark (t : Text) : Nat :=
  let n := countUpTo 3 ' ' t
  let digits := ((t.drop n).takeWhile Char.isDigit).length
  match t.drop (n + digits) with
  | c :: d :: _ =>
    if 0 < digits && (c == '.' || c == ')') && (d == ' ' || d == '\t') then n + digits + 2 else 0
  | _ => 0

/-- The number of characters of a definition mark. -/
def definitionMark (t : Text) : Nat :=
  match t with
  | ':' :: c :: _ => if c == ' ' || c == '\t' then 2 else 0
  | _ => 0

/-- Whether a mark starts an item of another style than the list around it. -/
def changesStyle (style : ListStyle) (t : Text) : Bool :=
  (0 < definitionMark t && style != .definition) || (0 < numberMark t && style != .numbered)
    || (0 < bulletMark t && style != .bullet)

/-- What is known of the items of a list while it is read. -/
structure ItemState where
  /-- Items are read as blocks once one of them was followed by a blank line or holds a block. -/
  asBlocks : Bool := false
  /-- The item is a term of a definition list. -/
  term : Bool := false
  /-- The list ends behind this item. -/
  ended : Bool := false

/-- The lines gathered for an item, with what came before the first nested item set apart. -/
structure Gathered where
  body : Text := []
  nested? : Option Text := none
  state : ItemState

namespace Gathered

/-- Appends text to an item. -/
def add (g : Gathered) (t : Text) : Gathered :=
  match g.nested? with
  | some nested => { g with nested? := some (nested ++ t) }
  | none => { g with body := g.body ++ t }

/-- Opens the nested part of an item, unless nothing would be left in front of it. A nested definition
takes the line before it along, which is its term. -/
def nest (g : Gathered) (definition : Bool) : Gathered :=
  match g.nested? with
  | some _ => g
  | none =>
    let nested : Text := if definition then ((linesOf g.body).getLast?).getD [] else []
    let body := g.body.take (g.body.length - nested.length)
    if body.isEmpty then g else { g with body, nested? := some nested }

/-- Reads the items that follow as blocks. -/
def blocky (g : Gathered) : Gathered := { g with state := { g.state with asBlocks := true } }

/-- Ends the list behind the item. -/
def endList (g : Gathered) : Gathered := { g with state := { g.state with ended := true } }

end Gathered

/-- Whether a definition list goes on behind a line that follows a blank one: the next line, or the
one behind it, starts with a colon, or hardly anything stands there. -/
def definitionGoesOn (behind : Text) : Bool :=
  let beyond := skipChar '\n' (behind.drop (Text.firstLine behind).length)
  1 < behind.byteLength &&
    (behind.head? == some ':' || beyond.byteLength ≤ 1 || beyond.head? == some ':')

/-- Gathers the lines of an item behind its first one. The arguments are the style of the list, the
indentation of its item and whether a blank line came last. -/
def gather (style : ListStyle) (itemIndent : Nat) (blank : Bool) (g : Gathered) :
    List Text → Gathered × List Text
  | [] => (g, [])
  | line :: lines =>
    if startsBlank line then gather style itemIndent true g lines
    else
      let tab := line.head? = some '\t'
      let indent := if tab then 4 else countUpTo 4 ' ' line
      let chunk := line.drop (if tab then 1 else indent)
      let proceed (g : Gathered) (chunk : Text) : Gathered × List Text :=
        let g := if blank then g.add ['\n'] else g
        gather style itemIndent false (g.add chunk) lines
      let isDefinition := 0 < definitionMark chunk
      if style ≠ .definition ∧ indent = 0 ∧ (openFence? chunk).isSome then (g.endList, line :: lines)
      else if (0 < bulletMark chunk ∧ !startsRule chunk) ∨ 0 < numberMark chunk ∨ isDefinition then
        let chunk :=
          if !tab ∧ indent = 4 ∧ !isDefinition then line.drop (3 - countUpTo 3 ' ' chunk)
          else chunk
        if indent ≤ itemIndent then
          if changesStyle style chunk then (g.endList, line :: lines)
          else (if blank then g.blocky else g, line :: lines)
        else proceed ((if blank then g.blocky else g).nest isDefinition) chunk
      else if startsHeading chunk then
        if blank ∧ indent < 4 then (g.endList, line :: lines) else proceed g.blocky chunk
      else if blank ∧ indent < 4 then
        (if style = .definition ∧ definitionGoesOn lines.flatten then g else g.endList, line :: lines)
      else if blank then proceed (g.blocky.add ['\n']) chunk
      else proceed g chunk

/-- A block quote: its content without the marks, and the text behind it. Lines without a mark
belong to it up to a blank line that no further quote follows. The fuel bounds the number of
lines. -/
def quoted : Nat → Text → Text × Text
  | 0, t => ([], t)
  | fuel + 1, t =>
    if t.isEmpty then ([], [])
    else
      let n := quotedLine t
      let mark := quoteMark t
      let rest := t.drop n
      let ends := mark = 0 ∧ startsBlank t ∧
        (rest.isEmpty ∨ (quoteMark rest = 0 ∧ !startsBlank rest))
      if ends then ([], rest)
      else
        let (content, behind) := quoted fuel rest
        ((t.take n).drop mark ++ content, behind)
where
  /-- The length of a line, which a fenced block inside it prolongs to its end. -/
  quotedLine : Text → Nat
    | [] => 0
    | '\n' :: _ => 1
    | c :: cs =>
      match fence? (c :: cs) with
      | some (_, rest) =>
        let n := (c :: cs).length - rest.length - 1
        n + (if (c :: cs)[n]? = some '\n' then 1 else 0)
      | none => quotedLine cs + 1

/-- A paragraph of the given lines, unless there are none. -/
def paragraphOf (lines : Text) : List (Block Text) :=
  if lines.isEmpty then []
  else [.paragraph (Text.trimEnd (· == ' ') (Text.dropEnding "\n" (skipChar ' ' lines)))]

section

variable (inner : Text → Reading (List (Block Text)))

/-- The blocks of a gathered item. An item that is not read as blocks is a single paragraph, apart
from the items nested in it. -/
def itemBlocks (g : Gathered) : Reading (List (Block Text)) := do
  if g.state.asBlocks && !g.state.term then
    let body ← inner g.body
    let nested ← inner (g.nested?.getD [])
    return body ++ nested
  else
    let nested ← inner (g.nested?.getD [])
    return .paragraph g.body :: nested

/-- One list item and the text behind it. -/
def item? (style : ListStyle) (state : ItemState) (t : Text) : Option (Gathered × Text) :=
  let itemIndent := if t.head? = some '\t' then 4 else countUpTo 3 ' ' t
  let mark :=
    if 0 < bulletMark t then bulletMark t
    else if 0 < numberMark t then numberMark t
    else definitionMark t
  if mark = 0 ∧ style ≠ .definition then none
  else
    let start := skipChar ' ' (t.drop mark)
    let unmarked := mark = 0 ∧ start.length = t.length
    let (first, rest) := if unmarked then ([], t) else splitLine start
    let state :=
      if mark = 0 then { state with term := true }
      else if bulletMark t = 0 ∧ numberMark t = 0 then { state with term := false }
      else state
    let (g, behind) := gather style itemIndent false { body := first, state } (linesOf rest)
    some (g, behind.flatten)

/-- The items of a list, whether it is tight, and the text behind it. -/
def readItems (style : ListStyle) (state : ItemState) (t : Text) :
    Reading (List (Bool × List (Block Text)) × Bool × Text) := do
  if t.isEmpty then return ([], true, [])
  else
    match item? style state t with
    | none => return ([], true, t)
    | some (g, rest) =>
      let blocks ← itemBlocks inner g
      if _h : rest.length < t.length then
        if g.state.ended then return ([(g.state.term, blocks)], !g.state.asBlocks, rest)
        else
          let (more, tight, behind) ← readItems style g.state rest
          return ((g.state.term, blocks) :: more, tight && !g.state.asBlocks, behind)
      else return ([(g.state.term, blocks)], !g.state.asBlocks, rest)
termination_by t.length

def readList (style : ListStyle) (t : Text) : Reading (List (Block Text) × Text) := do
  let (entries, tight, rest) ← readItems inner style {} t
  return ([.list style tight entries], rest)

/-- Whether a line ends a paragraph before it. -/
def interrupts (t : Text) : Bool :=
  startsHeading t || startsRule t || 0 < quoteMark t || (fence? t).isSome || (tableHeader? t).isSome

/-- Reads a paragraph. The lines read so far are given with the last one apart. -/
def readParagraph (before last : Text) (t : Text) : Reading (List (Block Text) × Text) := do
  let sofar := before ++ last
  if t.isEmpty then return (paragraphOf sofar, [])
  else
    match LinkDefinition.read? t with
    | some (definition, rest) =>
      modify (definition :: ·)
      return (paragraphOf sofar, rest)
    | none =>
      let (line, rest) := splitLine t
      if startsBlank t then
        if t[1]? = some ':' then readList inner .definition (last ++ t)
        else return (paragraphOf sofar, rest)
      else
        match (if sofar.isEmpty then none else underline? t) with
        | some level =>
          let words := Text.trimEnd (· == ' ') (skipChar ' ' (Text.dropEnding "\n" last))
          return (paragraphOf before ++ [.heading level [] false words], rest)
        | none =>
          if interrupts t then return (paragraphOf sofar, t)
          else if 0 < definitionMark t then readList inner .definition (last ++ t)
          else if _h : rest.length < t.length then readParagraph sofar line rest
          else return (paragraphOf (sofar ++ line), rest)
termination_by t.length

/-- Reads the blocks at the front of a text. The caption of a table may nest as deep as blocks still
may, and its links refer to the definitions before it. -/
def readNext (depth : Nat) (t : Text) : Reading (List (Block Text) × Text) := do
  let one : Option (Block Text × Text) → Option (List (Block Text) × Text) :=
    Option.map fun (b, rest) => ([b], rest)
  let leaf :=
    (heading? t).or <| (one (markup? t)).or <|
      if startsBlank t then some ([], (splitLine t).2)
      else (one (indented? t)).or <| (one (fence? t)).or <|
        if startsRule t then some ([.rule], (splitLine t).2) else none
  match leaf with
  | some result => return result
  | none =>
    if 0 < quoteMark t then
      let (content, rest) := quoted (t.length + 1) t
      return ([.quote (← inner content)], rest)
    else
      match table? (Span.readTo (← get) depth false) t with
      | some (b, rest) => return ([b], rest)
      | none =>
        if 0 < bulletMark t then readList inner .bullet t
        else if 0 < numberMark t then readList inner .numbered t
        else if 0 < definitionMark t then readList inner .definition t
        else
          match formula? t with
          | some (b, rest) => return ([b], rest)
          | none => readParagraph inner [] [] t

/-- Reads all blocks of a text. Every block consumes something of it. -/
def readAll (depth : Nat) (t : Text) : Reading (List (Block Text)) := do
  if t.isEmpty then return []
  else
    let (blocks, rest) ← readNext inner depth t
    if _h : rest.length < t.length then return blocks ++ (← readAll depth rest) else return blocks
termination_by t.length

end

/-- Reads blocks down to a depth. -/
def readTo : Nat → Text → Reading (List (Block Text))
  | 0, _ => return []
  | depth + 1, t => readAll (readTo depth) depth t

/-- The blocks of a text and the link definitions in it, the last one first. -/
def read (t : Text) : List (Block Text) × List LinkDefinition := (readTo maxDepth t).run []

end Marginalia.Markdown.Block
