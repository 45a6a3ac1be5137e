import Marginalia.Text.Basic

/-!
# White space

White space is the property of that name in the character database: the ASCII blanks, the next-line
control, the no-break space and the typographic spaces. Horizontal space is white space that does
not end a line.
-/
namespace Marginalia

def isSpace (c : Char) : Bool :=
  let n := c.toNat
  (9 ≤ n && n ≤ 13) || n == 0x20 || n == 0x85 || n == 0xA0 || n == 0x1680
    || (0x2000 ≤ n && n ≤ 0x200A) || n == 0x2028 || n == 0x2029 || n == 0x202F || n == 0x205F
    || n == 0x3000

/-- White space other than a line feed or a carriage return. -/
def isHorizontal (c : Char) : Bool := isSpace c && c != '\n' && c != '\r'

namespace Text

def trim (t : Text) : Text := trimEnd isSpace (trimStart isSpace t)

/-- Whether a text has no character other than white space. -/
def isBlank (t : Text) : Bool := t.all isSpace

/-- Adds one character at the front of the first word, or opens a word with it. -/
def growWord (c : Char) (inWord : Bool) : List Text → List Text
  | w :: ws => if inWord then (c :: w) :: ws else [c] :: w :: ws
  | [] => [[c]]

/-- The maximal runs of characters that are not white space, in order. -/
def words : Text → List Text
  | [] => []
  | c :: cs =>
    if isSpace c then words cs
    else
      match cs with
      | [] => [[c]]
      | d :: _ => growWord c (!isSpace d) (words cs)

end Text

end Marginalia
