import Marginalia.Text.Basic

/-!
# Texts as bytes

A file holds bytes; a text is what they mean in UTF-8. Encoding is total. Decoding is either strict,
and then refuses bytes that are not the encoding of a text, or lenient, and then puts the
replacement character for each byte that begins no character.
-/
namespace Marginalia

abbrev Bytes := List UInt8

namespace Utf8

def encode (t : Text) : Bytes := t.flatMap String.utf8EncodeChar

/-- A continuation byte carries six bits. -/
def tail? (b : UInt8) : Option Nat :=
  if 0x80 ≤ b ∧ b ≤ 0xBF then some (b.toNat - 0x80) else none

/-- The character with a code point, if the code point is one and needs more than the given bound. -/
def char? (least n : Nat) : Option Char :=
  if least ≤ n ∧ n.isValidChar then some (Char.ofNat n) else none

/-- The first character of a byte sequence and the number of its bytes behind the first one. -/
def first? : Bytes → Option (Char × Nat)
  | [] => none
  | a :: bs =>
    if a < 0x80 then some (Char.ofNat a.toNat, 0)
    else if a < 0xC0 then none
    else if a < 0xE0 then
      match bs with
      | b :: _ => do
        let c ← char? 0x80 ((a.toNat - 0xC0) * 64 + (← tail? b))
        return (c, 1)
      | _ => none
    else if a < 0xF0 then
      match bs with
      | b :: c :: _ => do
        let d ← char? 0x800 (((a.toNat - 0xE0) * 64 + (← tail? b)) * 64 + (← tail? c))
        return (d, 2)
      | _ => none
    else if a < 0xF8 then
      match bs with
      | b :: c :: d :: _ => do
        let e ← char? 0x10000
          ((((a.toNat - 0xF0) * 64 + (← tail? b)) * 64 + (← tail? c)) * 64 + (← tail? d))
        return (e, 3)
      | _ => none
    else none

def decode? : Bytes → Option Text
  | [] => some []
  | b :: bs =>
    match first? (b :: bs) with
    | none => none
    | some (c, more) => (decode? (bs.drop more)).map (c :: ·)
termination_by bs => bs.length
decreasing_by simp only [List.length_cons, List.length_drop]; omega

/-- The text that a byte sequence shows, with a replacement character for each byte that begins no
character. -/
def decodeLenient : Bytes → Text
  | [] => []
  | b :: bs =>
    match first? (b :: bs) with
    | none => '\uFFFD' :: decodeLenient bs
    | some (c, more) => c :: decodeLenient (bs.drop more)
termination_by bs => bs.length
decreasing_by all_goals (simp only [List.length_cons, List.length_drop]; omega)

end Utf8

end Marginalia
