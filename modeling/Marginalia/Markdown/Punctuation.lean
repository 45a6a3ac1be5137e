import Marginalia.Markdown.Glyph

/-!
# Typographic punctuation

Text that goes onto a page has its straight quotes turned into curly ones, its hyphens into dashes,
three periods into an ellipsis, and fractions and marks such as `(c)` into their symbols. It is
escaped before, so a double quote is seen as its entity. Which way a quote turns depends on its
neighbours and, where they do not help, on whether a quote of that kind is open.
-/
namespace Marginalia.Markdown

/-- Which quotes are open. -/
structure Quotes where
  single : Bool := false
  double : Bool := false
deriving Repr

namespace Punctuation

/-- A neighbour of a quote: the edge of the text or a character. -/
abbrev Neighbour := Option Char

/-- Whether a neighbour is the edge of the text; a null character counts as one. -/
def isEdge (n : Neighbour) : Bool := n.all (· == '\x00')

def isGap (n : Neighbour) : Bool := n.any isBlankChar

def isMark (n : Neighbour) : Bool := n.any isPunctuation

/-- Whether a word ends before a neighbour. -/
def isBoundary (n : Neighbour) : Bool := isEdge n || isGap n || isMark n

/-- Whether a quote between two neighbours opens. -/
def opens (isOpen : Bool) (before after : Neighbour) : Bool :=
  if isEdge after then
    if isEdge before then !isOpen else isGap before
  else if isGap after then
    if isGap before then !isOpen else false
  else if isMark after then
    if isEdge before then false
    else if isGap before then true
    else if isMark before then !isOpen
    else false
  else isEdge before || isGap before || isMark before

def curly (opening : Bool) (kind : Char) : Text :=
  ['&', if opening then 'l' else 'r', kind] ++ "quo;"

def doubleQuote (q : Quotes) (before after : Neighbour) : Text × Quotes :=
  let o := opens q.double before after
  (curly o 'd', { q with double := o })

def singleQuote (q : Quotes) (before after : Neighbour) : Text × Quotes :=
  let o := opens q.single before after
  (curly o 's', { q with single := o })

/-- Whether the text behind an apostrophe is the rest of a contraction. -/
def isContraction (t : Text) : Bool :=
  match t.map Char.toLower with
  | [] => false
  | [a] => a == 's' || a == 't' || a == 'm' || a == 'd'
  | a :: b :: rest =>
    ((a == 's' || a == 't' || a == 'm' || a == 'd') && isBoundary t[1]?)
      || (((a == 'r' && b == 'e') || (a == 'l' && b == 'l') || (a == 'v' && b == 'e'))
        && isBoundary rest.head?)

/-- A fraction at the front of a text: its two numbers and its length. A slash on either side makes
it a date. -/
def fraction? (before : Neighbour) (t : Text) : Option (Text × Text × Nat) :=
  if !isBoundary before || before == some '/' then none
  else
    let numerator := t.takeWhile Char.isDigit
    match t.drop numerator.length with
    | slash :: rest =>
      if slash == '/' || slash == '\u2044' then
        let denominator := rest.takeWhile Char.isDigit
        let behind := (rest.drop denominator.length).head?
        if denominator.isEmpty || !isBoundary behind || behind == some '/' then none
        else some (numerator, denominator, numerator.length + 1 + denominator.length)
      else none
    | [] => none

/-- What the characters at the front of a text become: the number of them, the text in their place
and the quotes open behind it. -/
def replace (q : Quotes) (before : Neighbour) (c : Char) (cs : Text) : Nat × Text × Quotes :=
  let same : Nat × Text × Quotes := (1, [c], q)
  let become (n : Nat) (t : Text) : Nat × Text × Quotes := (n, t, q)
  if c = '&' then
    match Text.dropOpening? "quot;" cs with
    | some rest => let (t, q) := doubleQuote q before rest.head?; (6, t, q)
    | none => if Text.opens "#0;" cs then become 4 [] else same
  else if c = '\'' then
    if cs.head? = some '\'' then let (t, q) := doubleQuote q before cs[1]?; (2, t, q)
    else if isContraction cs then become 1 "&rsquo;"
    else let (t, q) := singleQuote q before cs.head?; (1, t, q)
  else if c = '(' then
    let lower := (cs.take 2).map Char.toLower
    if lower = ("c)" : Text) then become 3 "&copy;"
    else if lower = ("r)" : Text) then become 3 "&reg;"
    else if lower = ("tm" : Text) ∧ cs[2]? = some ')' then become 4 "&trade;"
    else same
  else if c = '-' then
    if Text.opens "--" cs then become 3 "&mdash;"
    else if Text.opens "-" cs then become 2 "&ndash;"
    else same
  else if c = '.' then
    if Text.opens ".." cs then become 3 "&hellip;"
    else if Text.opens " . ." cs then become 5 "&hellip;"
    else same
  else if '1' ≤ c ∧ c ≤ '9' then
    match fraction? before (c :: cs) with
    | some (n, d, size) => become size ("<sup>" ++ n ++ "</sup>&frasl;<sub>" ++ d ++ "</sub>")
    | none => same
  else if c = '\x60' then
    if cs.head? = some '\x60' then let (t, q) := doubleQuote q before cs[1]?; (2, t, q)
    else same
  else same

/-- Sets the punctuation of a text that is already escaped. -/
def setFrom (q : Quotes) (before : Neighbour) (t : Text) : Text × Quotes :=
  match t with
  | [] => ([], q)
  | c :: cs =>
    let (n, out, q) := replace q before c cs
    let (rest, q) := setFrom q ((c :: cs)[n - 1]?) (cs.drop (n - 1))
    (out ++ rest, q)
termination_by t.length
decreasing_by simp only [List.length_cons, List.length_drop]; omega

/-- Sets the punctuation of a run of text. -/
def set (q : Quotes) (t : Text) : Text × Quotes := setFrom q none t

end Punctuation

end Marginalia.Markdown
