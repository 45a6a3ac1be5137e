import Marginalia.Text.Space

/-!
# Comment markers

The openings that the scanner looks for at its cursor. Each function looks at the rest of the file
and answers with a number of characters, so that a step of the scanner is a choice among these
answers.
-/
namespace Marginalia.Marker

/-- The number of leading horizontal spaces. -/
def margin (t : Text) : Nat := (t.takeWhile isHorizontal).length

/-- The number of leading horizontal spaces, counted up to a limit. -/
def marginUpTo (limit : Nat) (t : Text) : Nat := min limit (margin t)

/-- Whether a block comment opens behind the margin. -/
def opensBlock (t : Text) : Bool := Text.opens "/*" (t.drop (margin t))

/-- Whether a line comment opens behind the margin. -/
def opensLine (t : Text) : Bool := Text.opens "//" (t.drop (margin t))

/-- The length of the first line without its line feed. -/
def lineLength (t : Text) : Nat := (Text.firstLine t).length

/-- The length of a line end at the front of a text: none, a line feed, or both characters. -/
def lineEnd : Text → Nat
  | '\r' :: '\n' :: _ => 2
  | '\n' :: _ => 1
  | _ => 0

/-- The length of the first line together with its line feed, if it has one. -/
def wholeLine (t : Text) : Nat := lineLength t + lineEnd (t.drop (lineLength t))

/-- Length of margin, marker and blanks in front of the words of a line comment. -/
def lineCommentLead (t : Text) : Nat :=
  let m := margin t + 2
  m + margin (t.drop m)

/-- Whether the first line is a license tag. -/
def isLicenseTag (t : Text) : Bool :=
  opensLine t && Text.opens "SPDX-License-Identifier:" (t.drop (lineCommentLead t))

/-- The flag of a line directive: the shortest text between two plus signs on the first line, the
first of which follows the comment marker at once. -/
def directive? (t : Text) : Option Text :=
  match Text.dropOpening? "//+" (t.drop (margin t)) with
  | none => none
  | some behind => (Text.cut? "+" (Text.firstLine behind)).map (·.1)

/-- The number of characters up to and including the first quote that no backslash precedes. The
second argument is the character in front of the text. -/
def closingQuote (quote : Char) : Char → Text → Option Nat
  | _, [] => none
  | before, c :: cs =>
    if c = quote ∧ before ≠ '\\' then some 1 else (closingQuote quote c cs).map (· + 1)

/-- The length of a string literal at the front of a text. An opening quote that is never closed is
not a literal. -/
def literal? : Text → Option Nat
  | [] => none
  | q :: cs => if q = '"' ∨ q = '\'' then (closingQuote q q cs).map (· + 1) else none

/-- The length of a block comment at the front of a text, from opener to terminator. -/
def blockComment? (t : Text) : Option Nat :=
  (Text.cut? "*/" (t.drop 2)).map fun (body, _) => body.length + 4

end Marginalia.Marker
