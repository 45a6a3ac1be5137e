import Marginalia.Text.Utf8

/-!
# Percent encoding

A byte outside a set of plain characters is written as a percent sign and two hexadecimal digits.
Which characters are plain, and the case of the digits, depends on where the text is going to stand.
-/
namespace Marginalia.Percent

/-- The hexadecimal digits in the two cases. -/
def upperDigits : Text := "0123456789ABCDEF"

@[inherit_doc upperDigits]
def lowerDigits : Text := "0123456789abcdef"

def isAlphanumeric (b : UInt8) : Bool :=
  (0x61 ≤ b && b ≤ 0x7A) || (0x41 ≤ b && b ≤ 0x5A) || (0x30 ≤ b && b ≤ 0x39)

def escapeByte (digits : Text) (plain : UInt8 → Bool) (b : UInt8) : Text :=
  if plain b then [Char.ofNat b.toNat]
  else ['%', digits.getD (b.toNat / 16) '0', digits.getD (b.toNat % 16) '0']

def escape (digits : Text) (plain : UInt8 → Bool) (bs : Bytes) : Text :=
  bs.flatMap (escapeByte digits plain)

/-- The bytes that stay plain in a slug: letters, digits and the marks `-_.!~*'()`. -/
def isSlugPlain (b : UInt8) : Bool :=
  isAlphanumeric b || (Utf8.encode "-_.!~*'()").contains b

/-- The bytes that stay plain in a link to an anchor: letters, digits and the marks `-._~`. -/
def isLinkPlain (b : UInt8) : Bool :=
  isAlphanumeric b || (Utf8.encode "-._~").contains b

def digitValue? (c : Char) : Option Nat :=
  if '0' ≤ c ∧ c ≤ '9' then some (c.toNat - 48)
  else if 'a' ≤ c ∧ c ≤ 'f' then some (c.toNat - 87)
  else if 'A' ≤ c ∧ c ≤ 'F' then some (c.toNat - 55)
  else none

/-- The bytes that a written form denotes. A percent sign without two digits behind it is refused. -/
def unescape? : Text → Option Bytes
  | [] => some []
  | '%' :: hi :: lo :: rest => do
    let h ← digitValue? hi
    let l ← digitValue? lo
    return UInt8.ofNat (h * 16 + l) :: (← unescape? rest)
  | '%' :: _ => none
  | c :: rest => do return String.utf8EncodeChar c ++ (← unescape? rest)

end Marginalia.Percent
