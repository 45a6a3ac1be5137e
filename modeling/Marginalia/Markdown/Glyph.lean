import Marginalia.Text.Basic

/-!
# Classes of characters in markup

The rules of the markup language speak of ASCII classes only; every other character is an ordinary
one.
-/
namespace Marginalia.Markdown

/-- ASCII white space. -/
def isBlankChar (c : Char) : Bool :=
  c == ' ' || c == '\t' || c == '\n' || c == '\r' || c == '\x0c' || c == '\x0b'

/-- ASCII punctuation. -/
def isPunctuation (c : Char) : Bool :=
  let n := c.toNat
  (0x21 ≤ n && n ≤ 0x2F) || (0x3A ≤ n && n ≤ 0x40) || (0x5B ≤ n && n ≤ 0x60)
    || (0x7B ≤ n && n ≤ 0x7E)

/-- The text behind all leading occurrences of a character. -/
def skipChar (c : Char) (t : Text) : Text := t.dropWhile (· == c)

/-- The number of leading occurrences of a character, counted up to a limit. -/
def countUpTo (limit : Nat) (c : Char) (t : Text) : Nat := ((t.take limit).takeWhile (· == c)).length

/-- The text behind at most three leading spaces. -/
def skipIndent (t : Text) : Text := t.drop (countUpTo 3 ' ' t)

/-- The first line of a text with its line feed, and the rest. -/
def splitLine (t : Text) : Text × Text :=
  let (line, rest) := t.span (· ≠ '\n')
  match rest with
  | [] => (line, [])
  | nl :: rest => (line ++ [nl], rest)

/-- The lines of a text, each with its line feed. -/
def linesOf : Text → List Text
  | [] => []
  | c :: cs =>
    if c = '\n' then ['\n'] :: linesOf cs
    else
      match linesOf cs with
      | [] => [[c]]
      | l :: ls => (c :: l) :: ls

/-- Whether a text starts with a blank line. The empty text has no line. -/
def startsBlank (t : Text) : Bool :=
  !t.isEmpty && (Text.firstLine t).all fun c => c == ' ' || c == '\t'

/-- Whether an odd number of backslashes precedes the place behind the given text. -/
def endsEscaping (before : Text) : Bool := (before.reverse.takeWhile (· == '\\')).length % 2 == 1

/-- Each character with whether a backslash escapes it. -/
def withEscapes : Text → List (Char × Bool) :=
  go false
where
  go (escaped : Bool) : Text → List (Char × Bool)
    | [] => []
    | c :: cs => (c, escaped) :: go (c == '\\' && !escaped) cs

/-- Removes the backslash in front of each escaped character; a last lone backslash goes too. -/
def unescape : Text → Text
  | [] => []
  | ['\\'] => []
  | '\\' :: c :: cs => c :: unescape cs
  | c :: cs => c :: unescape cs

end Marginalia.Markdown
