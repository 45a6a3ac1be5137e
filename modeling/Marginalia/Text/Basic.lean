/-!
# Text

Every text the library looks into is a list of characters, so that a function on it is a recursion
on the list and a law about it is an induction. A string literal may stand wherever a text is
expected. This module holds the few list operations that all other modules share: testing for and
removing a leading or trailing part, splitting at a marker, lines, and joining.
-/
namespace Marginalia

/-- A text is its list of characters. -/
abbrev Text := List Char

instance : Coe String Text := ⟨String.toList⟩

namespace Text

/-- The rest of a text behind the given opening, if it has that opening. -/
def dropOpening? : Text → Text → Option Text
  | [], t => some t
  | _ :: _, [] => none
  | o :: os, c :: cs => if o = c then dropOpening? os cs else none

/-- Whether the first text is an opening of the second. -/
def opens (opening t : Text) : Bool := (dropOpening? opening t).isSome

/-- Removes the given opening where it is present. -/
def dropOpening (opening t : Text) : Text := (dropOpening? opening t).getD t

/-- The text in front of the given ending, if it has that ending. -/
def dropEnding? (ending t : Text) : Option Text :=
  (dropOpening? ending.reverse t.reverse).map List.reverse

/-- Removes the given ending where it is present. -/
def dropEnding (ending t : Text) : Text := (dropEnding? ending t).getD t

/-- The text before the first place where the marker stands, and the text behind that marker. -/
def cut? (marker : Text) : Text → Option (Text × Text)
  | [] => if marker = [] then some ([], []) else none
  | c :: cs =>
    match dropOpening? marker (c :: cs) with
    | some behind => some ([], behind)
    | none => (cut? marker cs).map fun (before, behind) => (c :: before, behind)

/-- Whether the marker stands anywhere in the text. -/
def occursIn (marker t : Text) : Bool := (cut? marker t).isSome

/-- The pieces between the places where a character stands, one more than there are places. -/
def splitAtChar (sep : Char) : Text → List Text
  | [] => [[]]
  | c :: cs =>
    if c = sep then [] :: splitAtChar sep cs
    else
      match splitAtChar sep cs with
      | [] => [[c]]
      | piece :: pieces => (c :: piece) :: pieces

def newlines (t : Text) : Nat := t.count '\n'

/-- The text up to, and without, the first line feed. -/
def firstLine (t : Text) : Text := t.takeWhile (· ≠ '\n')

/-- Puts the separator between neighbouring texts and appends them all. -/
def join (sep : Text) (ts : List Text) : Text := (ts.intersperse sep).flatten

/-- Removes all leading characters of a class. -/
def trimStart (p : Char → Bool) (t : Text) : Text := t.dropWhile p

/-- Removes all trailing characters of a class. -/
def trimEnd (p : Char → Bool) (t : Text) : Text := (t.reverse.dropWhile p).reverse

/-- Replaces each character by a text. -/
def expand (f : Char → Text) (t : Text) : Text := t.flatMap f

def ofNat (n : Nat) : Text := Nat.toDigits 10 n

/-- The decimal form of an integer, with a minus sign when it is negative. -/
def ofInt : Int → Text
  | .ofNat n => ofNat n
  | .negSucc n => '-' :: ofNat (n + 1)

def digit? (c : Char) : Option Nat :=
  if '0' ≤ c ∧ c ≤ '9' then some (c.toNat - '0'.toNat) else none

/-- The natural number that a nonempty run of decimal digits denotes. -/
def toNat? : Text → Option Nat
  | [] => none
  | cs => cs.foldl (fun acc c => do return (← acc) * 10 + (← digit? c)) (some 0)

/-- The integer that decimal digits behind an optional sign denote, as long as it fits into 64 bits. -/
def toInt? (t : Text) : Option Int :=
  let bounded (n : Int) : Option Int :=
    if -0x8000000000000000 ≤ n ∧ n < 0x8000000000000000 then some n else none
  match t with
  | '-' :: ds => (toNat? ds).bind fun n => bounded (-(n : Int))
  | '+' :: ds => (toNat? ds).bind fun n => bounded n
  | ds => (toNat? ds).bind fun n => bounded n

def byteLength (t : Text) : Nat := t.foldr (fun c n => c.utf8Size + n) 0

/-- The lower-case hexadecimal digits of a number, with leading zeros up to the given width. -/
def hex (width n : Nat) : Text :=
  let ds := Nat.toDigits 16 n
  List.replicate (width - ds.length) '0' ++ ds

end Text

end Marginalia
