import Marginalia.Text.Printable

/-!
# Quoted texts

A text is shown on one line between double quotes. Printable characters stand for themselves; quotes
and backslashes are escaped; the other characters are written with the shortest escape that exists
for them.
-/
namespace Marginalia.Quoted

def escapeChar (c : Char) : Text :=
  if c = '"' ∨ c = '\\' then ['\\', c]
  else if isPrintable c then [c]
  else
    match c.toNat with
    | 7 => "\\a"
    | 8 => "\\b"
    | 9 => "\\t"
    | 10 => "\\n"
    | 11 => "\\v"
    | 12 => "\\f"
    | 13 => "\\r"
    | n =>
      if n < 0x80 then "\\x" ++ Text.hex 2 n
      else if n < 0x10000 then "\\u" ++ Text.hex 4 n
      else "\\U" ++ Text.hex 8 n

/-- The written form without the quotes around it. -/
def escape (t : Text) : Text := t.flatMap escapeChar

def quote (t : Text) : Text := "\"" ++ escape t ++ "\""

end Marginalia.Quoted
