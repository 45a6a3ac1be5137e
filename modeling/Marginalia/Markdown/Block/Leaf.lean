import Marginalia.Markdown.Block
import Marginalia.Markdown.Info

/-!
# Blocks without blocks inside

Headings, rules, fenced and indented code, raw markup and displayed formulas. Each function looks at
the front of a text and answers with the block that stands there and the text behind it.
-/
namespace Marginalia.Markdown.Block

/-- The marks of a numbered heading: one to six number signs and a space. -/
def headingLevel? (t : Text) : Option Nat :=
  let level := countUpTo 6 '#' t
  if 0 < level ∧ t[level]? = some ' ' then some level else none

/-- Whether a special heading starts here. -/
def startsSpecial (t : Text) : Bool := Text.opens ".# " t && 4 ≤ t.byteLength

def startsHeading (t : Text) : Bool := (headingLevel? t).isSome || startsSpecial t

/-- The anchor written in braces in the line of a heading: the line before it, the anchor, and the
rest of the line. -/
def writtenAnchor? (line : Text) : Option (Text × Text × Text) := do
  let (before, behind) ← Text.cut? "\x7b#" line
  let (anchor, rest) ← Text.cut? "\x7d" behind
  return (before, anchor, rest)

/-- Removes closing number signs; one that a backslash escapes stays. -/
def dropClosingSigns (t : Text) : Text :=
  let front := t.reverse.dropWhile (· == '#')
  let signs := t.length - front.length
  if 0 < signs ∧ endsEscaping front.reverse then front.reverse ++ ['#'] else front.reverse

/-- A heading from the text behind its marks. A heading without words is no block. -/
def headingLine (level : Nat) (special : Bool) (t : Text) : List (Block Text) × Text :=
  let start := skipChar ' ' t
  let line := Text.firstLine start
  let trim := Text.trimEnd (· == ' ')
  let (words, anchor, rest) :=
    match writtenAnchor? line with
    | some (before, anchor, rest) => (trim before, anchor, rest ++ start.drop line.length)
    | none => (line, [], start.drop line.length)
  let content := trim (dropClosingSigns words)
  (if content.isEmpty then [] else [.heading level anchor special content], rest)

def heading? (t : Text) : Option (List (Block Text) × Text) :=
  match headingLevel? t with
  | some level => some (headingLine level false (t.drop level))
  | none => if startsSpecial t then some (headingLine 1 true (t.drop 2)) else none

/-- The level that an underline gives to the line above it. The underline has to end in a line
feed. -/
def underline? (t : Text) : Option Nat :=
  match t with
  | c :: cs =>
    if c = '=' ∨ c = '-' then
      if (skipChar ' ' (skipChar c cs)).head? = some '\n' then some (if c = '=' then 1 else 2)
      else none
    else none
  | [] => none

/-- Whether the first line is a rule: three or more equal marks with nothing but spaces between. -/
def startsRule (t : Text) : Bool :=
  match skipIndent t with
  | c :: cs =>
    let line := Text.firstLine (c :: cs)
    (c == '*' || c == '-' || c == '_') && line.all (fun d => d == c || d == ' ')
      && 3 ≤ line.count c
  | [] => false

/-- The end of a fence line: spaces, and then the end of the line or of the text. -/
def fenceEnd? (t : Text) : Option Text :=
  match skipChar ' ' t with
  | [] => some []
  | '\n' :: rest => some rest
  | _ => none

/-- The marker of a fence line and the text behind it. -/
def fenceMarker? (t : Text) : Option (Text × Text) :=
  match skipIndent t with
  | c :: cs =>
    let marker := (c :: cs).takeWhile (· == c)
    if (c == '~' || c == '\x60') && 3 ≤ marker.length then
      some (marker, (c :: cs).drop marker.length)
    else none
  | [] => none

/-- An opening fence: its marker, its info text and the text behind its line. -/
def openFence? (t : Text) : Option (Text × Text × Text) := do
  let (marker, behind) ← fenceMarker? t
  match skipChar ' ' behind with
  | [] => return (marker, [], [])
  | start =>
    let (info, rest) ← Info.read? start
    return (marker, info, ← fenceEnd? rest)

/-- A closing fence with the given marker: the text behind its line. -/
def closeFence? (marker t : Text) : Option Text := do
  let (found, behind) ← fenceMarker? t
  if found = marker then fenceEnd? behind else none

/-- The lines up to the closing fence, and the text behind it. -/
def fencedLines? (marker : Text) (t : Text) : Option (Text × Text) :=
  match closeFence? marker t with
  | some rest => some ([], rest)
  | none =>
    match _h : t.dropWhile (· ≠ '\n') with
    | _ :: c :: cs =>
      (fencedLines? marker (c :: cs)).map fun (body, rest) =>
        (Text.firstLine t ++ '\n' :: body, rest)
    | _ => none
termination_by t.length
decreasing_by
  have hl := (List.dropWhile_suffix (l := t) (· ≠ '\n')).length_le
  rw [_h] at hl
  simp at hl
  simp
  omega

def fence? (t : Text) : Option (Block Text × Text) :=
  match openFence? t with
  | none => none
  | some (_, _, []) => none
  | some (marker, info, rest) =>
    (fencedLines? marker rest).map fun (body, behind) => (.code (Info.meant info) body, behind)

/-- The number of characters that mark a line of indented code. -/
def codeIndent (t : Text) : Nat :=
  match t with
  | '\t' :: _ => 1
  | ' ' :: ' ' :: ' ' :: ' ' :: _ => 4
  | _ => 0

/-- The lines of indented code among the given lines, and those behind it. -/
def indentedLines : List Text → List Text × List Text
  | [] => ([], [])
  | line :: lines =>
    let n := codeIndent line
    if startsBlank line then
      let (body, rest) := indentedLines lines
      (['\n'] :: body, rest)
    else if 0 < n then
      let (body, rest) := indentedLines lines
      (line.drop n :: body, rest)
    else ([], line :: lines)

/-- An indented code block. It ends with one line feed. -/
def indented? (t : Text) : Option (Block Text × Text) :=
  if codeIndent t = 0 then none
  else
    let (body, rest) := indentedLines (linesOf t)
    some (.code [] (Text.trimEnd (· == '\n') body.flatten ++ ['\n']), rest.flatten)

/-- The elements that stand as blocks of their own. -/
def blockElements : List Text :=
  (["blockquote", "del", "dd", "div", "dl", "dt", "fieldset", "form", "h1", "h2", "h3", "h4", "h5",
   "h6", "iframe", "ins", "li", "math", "noscript", "ol", "pre", "p", "script", "style", "table",
   "ul", "address", "article", "aside", "canvas", "details", "dialog", "figcaption", "figure",
   "footer", "header", "hgroup", "main", "nav", "output", "progress", "section", "svg", "video"] :
    List String).map String.toList

/-- The text behind a closing tag that is followed by an empty rest of its line and a blank line or
the end of the text. -/
def closeElement? (element t : Text) : Option Text := do
  let behind ← Text.dropOpening? ("</" ++ element ++ ">") t
  if startsBlank behind then
    let next := (splitLine behind).2
    if next.isEmpty then some next
    else if startsBlank next then some (splitLine next).2
    else none
  else none

/-- The text behind the end of an element, searched among its closing tags. -/
def elementEnd? (element : Text) : Text → Option Text
  | [] => none
  | c :: cs =>
    if c = '<' ∧ cs.head? = some '/' then
      if (c :: cs).length ≤ element.length + 3 then none
      else
        match closeElement? element (c :: cs) with
        | some rest => some rest
        | none => elementEnd? element cs
    else elementEnd? element cs

/-- The length of a comment at the front of a text; its arrows may share a hyphen. -/
def comment? (t : Text) : Option Nat :=
  (Text.dropOpening? "<!-" t).bind fun body =>
    if body.head? = some '-' then (Text.cut? "-->" body).map fun (inside, _) => inside.length + 6
    else none

/-- The length of a rule tag at the front of a text. -/
def ruleTag? (t : Text) : Option Nat :=
  match t with
  | '<' :: h :: r :: c :: _ =>
    if (h == 'h' || h == 'H') && (r == 'r' || r == 'R') && (c == ' ' || c == '/' || c == '>') then
      let body := (t.drop 3).takeWhile fun d => d != '>' && d != '\n'
      if (t.drop (3 + body.length)).head? = some '>' then some (body.length + 4) else none
    else none
  | _ => none

/-- A block of raw markup: an element, a comment or a rule tag, up to a blank line. -/
def markup? (t : Text) : Option (Block Text × Text) :=
  match t with
  | '<' :: inner =>
    let name := inner.takeWhile Char.isAlphanum
    let block (rest : Text) : Block Text × Text :=
      (.markup (Text.trimEnd (· == '\n') (t.take (t.length - rest.length))), rest)
    if blockElements.contains name then
      if name = ("ins" : Text) ∨ name = ("del" : Text) then none
      else (elementEnd? name inner).map block
    else
      match (comment? t).or (ruleTag? t) with
      | some n => if startsBlank (t.drop n) then some (block (splitLine (t.drop n)).2) else none
      | none => none
  | _ => none

/-- A displayed formula between double dollar signs. -/
def formula? (t : Text) : Option (Block Text × Text) :=
  match t with
  | '$' :: '$' :: body =>
    if t.byteLength ≤ 4 ∨ body.head? = some '$' then none
    else (Text.cut? "$$" body).map fun (inside, rest) => (.math inside, rest)
  | _ => none

end Marginalia.Markdown.Block
