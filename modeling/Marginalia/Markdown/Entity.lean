import Marginalia.Markdown.Entity.Names
import Marginalia.Markdown.Glyph

/-!
# Character entities

An entity stands for a character by its number, or for one or two characters by a name with a
semicolon behind it. Some names need no semicolon: a longer name that begins with one of these, and is
none itself, is read as that entity and the rest as text.
-/
namespace Marginalia.Markdown.Entity

/-- The characters that a name stands for when a semicolon follows it. -/
def named? (name : Text) : Option Text := characters.lookup name

/-- The characters that a name stands for without a semicolon. -/
def bare? (name : Text) : Option Text := if bareNames.contains name then named? name else none

/-- The length of the longest name that needs no semicolon. -/
def longestName : Nat := 6

/-- The characters that the numbers of the second block of controls stand for. -/
def controls : Text :=
  "€\u0081‚ƒ„…†‡ˆ‰Š‹Œ\u008dŽ\u008f\u0090‘’“”•–—˜™š›œ\u009džŸ"

/-- The character that a number of 32 bits stands for. -/
def numbered (number : Nat) : Char :=
  let n := number % 0x100000000
  if 0x80 ≤ n ∧ n ≤ 0x9F then controls.getD (n - 0x80) '\uFFFD'
  else if n ≠ 0 ∧ n.isValidChar then Char.ofNat n
  else '\uFFFD'

/-- One if a text begins with a semicolon. -/
def semicolon (t : Text) : Nat := if t.head? = some ';' then 1 else 0

/-- A numeric entity from behind its number sign on: its character and its length there. A digit alone
is none. -/
def numeric? (t : Text) : Option (Char × Nat) :=
  let (base, mark, start) : Nat × Nat × Text :=
    match t with
    | 'x' :: ds => (16, 1, ds)
    | 'X' :: ds => (16, 1, ds)
    | ds => (10, 0, ds)
  let digits := start.takeWhile fun c => (Numeral.digitIn? base c).isSome
  let n := mark + digits.length + semicolon (start.drop digits.length)
  if n ≤ 1 then none else some (numbered (valueIn base digits), n)

/-- The longest entity without a semicolon among the first characters of a name, but at least two of
them. -/
def bareAmong? (name : Text) : Nat → Option (Text × Nat)
  | 0 | 1 => none
  | n + 2 =>
    match bare? (name.take (n + 2)) with
    | some cs => some (cs, n + 2)
    | none => bareAmong? name (n + 1)

/-- The entity behind an ampersand: the characters it stands for and its length there. -/
def read? : Text → Option (Text × Nat)
  | '#' :: t => (numeric? t).map fun (c, n) => ([c], n + 1)
  | t =>
    let name := t.takeWhile Char.isAlphanum
    let ending := semicolon (t.drop name.length)
    match if ending = 1 then named? name else bare? name with
    | some cs => some (cs, name.length + ending)
    | none => bareAmong? name (min (name.length + ending - 1) longestName)

/-- Replaces entities by the characters they stand for. -/
def expand (t : Text) : Text :=
  match t with
  | [] => []
  | c :: cs =>
    match (if c = '&' then read? cs else none) with
    | some (ds, n) => ds ++ expand (cs.drop n)
    | none => c :: expand cs
termination_by t.length
decreasing_by all_goals (simp only [List.length_cons, List.length_drop]; omega)

/-- The length of an entity that is written out in full, from behind its ampersand on. -/
def fullLength? (t : Text) : Option Nat :=
  let ended (start low high : Nat) (p : Char → Bool) : Option Nat :=
    let n := ((t.drop start).takeWhile p).length
    if low ≤ n ∧ n ≤ high ∧ t[start + n]? = some ';' then some (start + n + 1) else none
  match t with
  | '#' :: 'x' :: _ => ended 2 1 8 fun c => (Numeral.digitIn? 16 c).isSome
  | '#' :: 'X' :: _ => ended 2 1 8 fun c => (Numeral.digitIn? 16 c).isSome
  | '#' :: _ => ended 1 1 8 Char.isDigit
  | c :: _ => if c.isAlpha then ended 0 2 32 Char.isAlphanum else none
  | [] => none

/-- Replaces entities that are written out in full, and removes backslashes in front of
punctuation. -/
def expandEscaped (t : Text) : Text :=
  match t with
  | [] => []
  | c :: cs =>
    if c = '\\' ∧ cs.head?.any isPunctuation then cs.take 1 ++ expandEscaped (cs.drop 1)
    else
      match (if c = '&' then fullLength? cs else none) with
      | some n => expand (c :: cs.take n) ++ expandEscaped (cs.drop n)
      | none => c :: expandEscaped cs
termination_by t.length
decreasing_by all_goals (simp only [List.length_cons, List.length_drop]; omega)

end Marginalia.Markdown.Entity
