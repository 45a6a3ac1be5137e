import Marginalia.Text.Percent
import Mathlib.Data.List.Basic
import Mathlib.Tactic.SplitIfs

/-!
# Encodings can be read back

The bytes of a character tell how many they are and which character it is, so a text is read back
from its bytes, and from no others. A byte in its percent form is read back from the form, whatever the case of the
digits, if no byte that stays plain is a percent sign or stands outside ASCII.
-/
namespace Marginalia

namespace Utf8

theorem tail?_ofNat {n : Nat} (h : n < 64) : tail? (UInt8.ofNat (n + 0x80)) = some n := by
  have hn : (UInt8.ofNat (n + 0x80)).toNat = n + 0x80 := Nat.mod_eq_of_lt (by omega)
  have hrange : 0x80 ≤ UInt8.ofNat (n + 0x80) ∧ UInt8.ofNat (n + 0x80) ≤ 0xBF := by
    constructor
    · rw [UInt8.le_iff_toNat_le, hn]
      exact Nat.le_add_left 0x80 n
    · rw [UInt8.le_iff_toNat_le, hn]
      exact Nat.add_le_add_right (show n ≤ 0x3F by omega) 0x80
  rw [tail?, if_pos hrange, hn, Nat.add_sub_cancel]

theorem char?_toNat {least : Nat} {c : Char} (h : least ≤ c.toNat) :
    char? least c.toNat = some c := by
  rw [char?, if_pos ⟨h, c.valid⟩, Char.ofNat_toNat]

section First
variable {c : Char} {i j k l : Nat} {bs : Bytes}

theorem first?_one (h : c.toNat < 0x80) : first? (UInt8.ofNat c.toNat :: bs) = some (c, 0) := by
  have hlead : (UInt8.ofNat c.toNat).toNat = c.toNat := Nat.mod_eq_of_lt (by omega)
  simp only [first?, UInt8.lt_iff_toNat_lt, hlead, UInt8.reduceToNat]
  rw [if_pos h, Char.ofNat_toNat]

theorem first?_two (hi : i < 32) (hj : j < 64) (hc : c.toNat = i * 64 + j)
    (hleast : 0x80 ≤ c.toNat) :
    first? (UInt8.ofNat (i + 0xC0) :: UInt8.ofNat (j + 0x80) :: bs) = some (c, 1) := by
  have hlead : (UInt8.ofNat (i + 0xC0)).toNat = i + 0xC0 := Nat.mod_eq_of_lt (by omega)
  simp only [first?, UInt8.lt_iff_toNat_lt, hlead, UInt8.reduceToNat, tail?_ofNat hj,
    Nat.add_sub_cancel]
  rw [if_neg (by omega), if_neg (by omega), if_pos (by omega)]
  simp [← hc, char?_toNat hleast]

theorem first?_three (hi : i < 16) (hj : j < 64) (hk : k < 64)
    (hc : c.toNat = (i * 64 + j) * 64 + k) (hleast : 0x800 ≤ c.toNat) :
    first? (UInt8.ofNat (i + 0xE0) :: UInt8.ofNat (j + 0x80) :: UInt8.ofNat (k + 0x80) :: bs) =
      some (c, 2) := by
  have hlead : (UInt8.ofNat (i + 0xE0)).toNat = i + 0xE0 := Nat.mod_eq_of_lt (by omega)
  simp only [first?, UInt8.lt_iff_toNat_lt, hlead, UInt8.reduceToNat, tail?_ofNat hj,
    tail?_ofNat hk, Nat.add_sub_cancel]
  rw [if_neg (by omega), if_neg (by omega), if_neg (by omega), if_pos (by omega)]
  simp [← hc, char?_toNat hleast]

theorem first?_four (hi : i < 8) (hj : j < 64) (hk : k < 64) (hl : l < 64)
    (hc : c.toNat = ((i * 64 + j) * 64 + k) * 64 + l) (hleast : 0x10000 ≤ c.toNat) :
    first? (UInt8.ofNat (i + 0xF0) :: UInt8.ofNat (j + 0x80) :: UInt8.ofNat (k + 0x80) ::
      UInt8.ofNat (l + 0x80) :: bs) = some (c, 3) := by
  have hlead : (UInt8.ofNat (i + 0xF0)).toNat = i + 0xF0 := Nat.mod_eq_of_lt (by omega)
  simp only [first?, UInt8.lt_iff_toNat_lt, hlead, UInt8.reduceToNat, tail?_ofNat hj,
    tail?_ofNat hk, tail?_ofNat hl, Nat.add_sub_cancel]
  rw [if_neg (by omega), if_neg (by omega), if_neg (by omega), if_neg (by omega),
    if_pos (by omega)]
  simp [← hc, char?_toNat hleast]

/-- The first character of the bytes of a character is that character, whatever follows. -/
theorem first?_utf8EncodeChar (c : Char) (bs : Bytes) :
    first? (String.utf8EncodeChar c ++ bs) = some (c, (String.utf8EncodeChar c).length - 1) := by
  have hbound : c.toNat < 0x110000 := by
    have hvalid : c.toNat < 0xD800 ∨ 0xDFFF < c.toNat ∧ c.toNat < 0x110000 := c.valid
    omega
  have hval : c.val.toNat = c.toNat := rfl
  simp only [String.utf8EncodeChar, hval]
  split_ifs with h₁ h₂ h₃
  · exact first?_one (by omega)
  · exact first?_two (by omega) (by omega) (by omega) (by omega)
  · exact first?_three (by omega) (by omega) (by omega) (by omega) (by omega)
  · exact first?_four (by omega) (by omega) (by omega) (by omega) (by omega) (by omega)

end First

/-- A character has the code point from which it is made. -/
theorem toNat_ofNat {n : Nat} (h : n.isValidChar) : (Char.ofNat n).toNat = n := by
  rw [Char.ofNat, dif_pos h]
  rfl

theorem toNat_ofNat_of_ascii {n : Nat} (h : n < 0x80) : (Char.ofNat n).toNat = n :=
  toNat_ofNat (.inl (by omega))

theorem utf8EncodeChar_of_ascii {c : Char} (h : c.toNat < 0x80) :
    String.utf8EncodeChar c = [UInt8.ofNat c.toNat] :=
  if_pos (Nat.le_of_lt_succ h)

/-- A text is read back from its bytes. -/
theorem decode?_encode (t : Text) : decode? (encode t) = some t := by
  induction t with
  | nil => exact decode?.eq_1
  | cons c t ih =>
      have hfirst := first?_utf8EncodeChar c (encode t)
      obtain ⟨b, more, hbytes⟩ := List.exists_cons_of_ne_nil (String.utf8EncodeChar_ne_nil (c := c))
      rw [hbytes, List.cons_append] at hfirst
      rw [encode, List.flatMap_cons, ← encode, hbytes, List.cons_append, decode?, hfirst]
      simp [ih]

theorem tail?_eq_some {b : UInt8} {n : Nat} (h : tail? b = some n) :
    n < 64 ∧ b = UInt8.ofNat (n + 0x80) := by
  unfold tail? at h
  split at h
  · next hrange =>
    simp only [UInt8.le_iff_toNat_le, UInt8.reduceToNat] at hrange
    rw [Option.some.injEq] at h
    subst h
    refine ⟨by omega, ?_⟩
    rw [Nat.sub_add_cancel hrange.1, UInt8.ofNat_toNat]
  · cases h

theorem char?_eq_some {least n : Nat} {c : Char} (h : char? least n = some c) :
    least ≤ n ∧ c.toNat = n := by
  unfold char? at h
  split at h
  · next hvalid =>
    cases h
    exact ⟨hvalid.1, toNat_ofNat hvalid.2⟩
  · cases h

section Encode
variable {c : Char} {i j k l : Nat}

theorem utf8EncodeChar_two (hi : i < 32) (hj : j < 64) (hc : c.toNat = i * 64 + j)
    (hleast : 0x80 ≤ c.toNat) :
    String.utf8EncodeChar c = [UInt8.ofNat (i + 0xC0), UInt8.ofNat (j + 0x80)] := by
  have hval : c.val.toNat = c.toNat := rfl
  have hfirst : c.toNat / 64 % 32 = i := by omega
  have hsecond : c.toNat % 64 = j := by omega
  simp only [String.utf8EncodeChar, hval]
  rw [if_neg (by omega), if_pos (by omega), hfirst, hsecond]

theorem utf8EncodeChar_three (hi : i < 16) (hj : j < 64) (hk : k < 64)
    (hc : c.toNat = (i * 64 + j) * 64 + k) (hleast : 0x800 ≤ c.toNat) :
    String.utf8EncodeChar c =
      [UInt8.ofNat (i + 0xE0), UInt8.ofNat (j + 0x80), UInt8.ofNat (k + 0x80)] := by
  have hval : c.val.toNat = c.toNat := rfl
  have hfirst : c.toNat / 4096 % 16 = i := by omega
  have hsecond : c.toNat / 64 % 64 = j := by omega
  have hthird : c.toNat % 64 = k := by omega
  simp only [String.utf8EncodeChar, hval]
  rw [if_neg (by omega), if_neg (by omega), if_pos (by omega), hfirst, hsecond, hthird]

theorem utf8EncodeChar_four (hi : i < 8) (hj : j < 64) (hk : k < 64) (hl : l < 64)
    (hc : c.toNat = ((i * 64 + j) * 64 + k) * 64 + l) (hleast : 0x10000 ≤ c.toNat) :
    String.utf8EncodeChar c = [UInt8.ofNat (i + 0xF0), UInt8.ofNat (j + 0x80),
      UInt8.ofNat (k + 0x80), UInt8.ofNat (l + 0x80)] := by
  have hval : c.val.toNat = c.toNat := rfl
  have hfirst : c.toNat / 262144 % 8 = i := by omega
  have hsecond : c.toNat / 4096 % 64 = j := by omega
  have hthird : c.toNat / 64 % 64 = k := by omega
  have hfourth : c.toNat % 64 = l := by omega
  simp only [String.utf8EncodeChar, hval]
  rw [if_neg (by omega), if_neg (by omega), if_neg (by omega), hfirst, hsecond, hthird, hfourth]

end Encode

/-- The bytes of the first character stand in front. -/
theorem eq_append_of_first? {bs : Bytes} {c : Char} {more : Nat} (h : first? bs = some (c, more)) :
    bs = String.utf8EncodeChar c ++ bs.drop (more + 1) := by
  unfold first? at h
  split at h
  · cases h
  · next a bs =>
    have hlead (n : Nat) (hn : n ≤ a.toNat) : a = UInt8.ofNat (a.toNat - n + n) := by
      rw [Nat.sub_add_cancel hn, UInt8.ofNat_toNat]
    simp only [UInt8.lt_iff_toNat_lt, UInt8.reduceToNat] at h
    split at h
    · next hone =>
      cases h
      have hcode := toNat_ofNat_of_ascii hone
      rw [utf8EncodeChar_of_ascii (lt_of_eq_of_lt hcode hone), hcode, UInt8.ofNat_toNat]
      rfl
    split at h
    · cases h
    split at h
    · split at h
      · next b bs =>
        simp only [Option.bind_eq_bind, Option.bind_eq_some_iff] at h
        obtain ⟨j, hj, c', hc, h⟩ := h
        cases h
        obtain ⟨hj, hb⟩ := tail?_eq_some hj
        obtain ⟨hleast, hc⟩ := char?_eq_some hc
        rw [utf8EncodeChar_two (by omega) hj hc (by omega), ← hlead 0xC0 (by omega), ← hb]
        rfl
      · cases h
    split at h
    · split at h
      · next b d bs =>
        simp only [Option.bind_eq_bind, Option.bind_eq_some_iff] at h
        obtain ⟨j, hj, k, hk, c', hc, h⟩ := h
        cases h
        obtain ⟨hj, hb⟩ := tail?_eq_some hj
        obtain ⟨hk, hd⟩ := tail?_eq_some hk
        obtain ⟨hleast, hc⟩ := char?_eq_some hc
        rw [utf8EncodeChar_three (by omega) hj hk hc (by omega), ← hlead 0xE0 (by omega), ← hb, ← hd]
        rfl
      · cases h
    split at h
    · split at h
      · next b d e bs =>
        simp only [Option.bind_eq_bind, Option.bind_eq_some_iff] at h
        obtain ⟨j, hj, k, hk, l, hl, c', hc, h⟩ := h
        cases h
        obtain ⟨hj, hb⟩ := tail?_eq_some hj
        obtain ⟨hk, hd⟩ := tail?_eq_some hk
        obtain ⟨hl, he⟩ := tail?_eq_some hl
        obtain ⟨hleast, hc⟩ := char?_eq_some hc
        rw [utf8EncodeChar_four (by omega) hj hk hl hc (by omega), ← hlead 0xF0 (by omega), ← hb,
          ← hd, ← he]
        rfl
      · cases h
    · cases h

/-- Only the bytes of a text are read as that text. -/
theorem encode_of_decode? {bs : Bytes} {t : Text} (h : decode? bs = some t) : encode t = bs := by
  induction bs using decode?.induct generalizing t with
  | case1 =>
      rw [decode?] at h
      cases h
      rfl
  | case2 b bs hfirst =>
      rw [decode?, hfirst] at h
      cases h
  | case3 b bs c more hfirst ih =>
      rw [decode?, hfirst] at h
      obtain ⟨rest, hrest, rfl⟩ := Option.map_eq_some_iff.mp h
      rw [encode, List.flatMap_cons, ← encode, ih hrest]
      exact (eq_append_of_first? hfirst).symm

end Utf8

namespace Percent

/-- The written form of bytes can be read back: its digits stand for their places, and a byte stays
plain only if it is the ASCII code of a character other than the percent sign. -/
structure Readable (digits : Text) (plain : UInt8 → Bool) : Prop where
  digit : ∀ n < 16, digitValue? (digits.getD n '0') = some n
  plain : ∀ b, plain b → b.toNat < 0x80 ∧ b.toNat ≠ '%'.toNat

/-- Whatever holds of every number below 256 holds of every byte. -/
theorem forall_byte {P : UInt8 → Prop} (h : ∀ n : Fin 256, P (UInt8.ofNat n)) (b : UInt8) :
    P b := by
  have hb := h ⟨b.toNat, b.toNat_lt⟩
  rwa [UInt8.ofNat_toNat] at hb

theorem readable_slug : Readable upperDigits isSlugPlain where
  digit := by decide
  plain := forall_byte (by decide +kernel)

section Unescape
variable {digits : Text} {plain : UInt8 → Bool}

theorem unescape?_cons {c : Char} (h : c ≠ '%') (t : Text) :
    unescape? (c :: t) = (unescape? t).map (String.utf8EncodeChar c ++ ·) := by
  rw [unescape?]
  · cases unescape? t <;> rfl
  · rintro hi lo rest rfl
    exact absurd rfl h
  · rintro rfl
    exact absurd rfl h

theorem unescape?_escapeByte (h : Readable digits plain) (b : UInt8) (t : Text) :
    unescape? (escapeByte digits plain b ++ t) = (unescape? t).map (b :: ·) := by
  have hb : b.toNat < 256 := b.toNat_lt
  unfold escapeByte
  split
  · next hplain =>
    obtain ⟨hascii, hpercent⟩ := h.plain b hplain
    have hcode : (Char.ofNat b.toNat).toNat = b.toNat := Utf8.toNat_ofNat_of_ascii hascii
    have hne : Char.ofNat b.toNat ≠ '%' := by
      intro heq
      rw [heq] at hcode
      exact hpercent hcode.symm
    have hbytes := Utf8.utf8EncodeChar_of_ascii (lt_of_eq_of_lt hcode hascii)
    rw [hcode, UInt8.ofNat_toNat] at hbytes
    rw [List.singleton_append, unescape?_cons hne, hbytes]
    rfl
  · have hhigh := h.digit (b.toNat / 16) (by omega)
    have hlow := h.digit (b.toNat % 16) (by omega)
    have hvalue : b.toNat / 16 * 16 + b.toNat % 16 = b.toNat := by omega
    simp only [List.cons_append, List.nil_append]
    rw [unescape?, hhigh, hlow]
    simp only [Option.bind_eq_bind, Option.bind_some, hvalue, UInt8.ofNat_toNat]
    cases unescape? t <;> rfl

/-- Bytes are read back from their written form. -/
theorem unescape?_escape (h : Readable digits plain) (bs : Bytes) :
    unescape? (escape digits plain bs) = some bs := by
  induction bs with
  | nil => rfl
  | cons b bs ih =>
      rw [escape, List.flatMap_cons, unescape?_escapeByte h, ← escape, ih]
      rfl

end Unescape

end Percent

end Marginalia
