import Marginalia.Anchor
import Marginalia.Proofs.LetterCase

/-!
# Slugs keep the words of a title

A slug is the percent form of the lower-cased words of a title with hyphens between them. It is
written with few characters, none of which is white space or has a meaning in markup, and it can be
read back. So titles share a slug just when their lower-cased words, joined, are the same.
-/
namespace Marginalia

namespace Percent

/-- The characters that stand for themselves in a slug. -/
def isPlainChar (c : Char) : Bool :=
  ('A' ≤ c && c ≤ 'Z') || ('a' ≤ c && c ≤ 'z') || ('0' ≤ c && c ≤ '9') ||
    c ∈ ("-_.!~*'()" : Text)

/-- Texts of plain characters and of triples, each a percent sign and two upper-case digits. -/
inductive Written : Text → Prop
  | nil : Written []
  | plain {c : Char} {t : Text} : isPlainChar c → Written t → Written (c :: t)
  | triple {hi lo : Char} {t : Text} : hi ∈ ("0123456789ABCDEF" : Text) →
      lo ∈ ("0123456789ABCDEF" : Text) → Written t → Written ('%' :: hi :: lo :: t)

theorem isPlainChar_ofNat : ∀ b, isSlugPlain b → isPlainChar (Char.ofNat b.toNat) :=
  forall_byte (by decide +kernel)

theorem Written.escapeByte {t : Text} (h : Written t) (b : UInt8) :
    Written (escapeByte upperDigits isSlugPlain b ++ t) := by
  have hdigit : ∀ n < 16, upperDigits.getD n '0' ∈ ("0123456789ABCDEF" : Text) := by decide
  have hb : b.toNat < 256 := b.toNat_lt
  unfold Percent.escapeByte
  split
  · next hplain => exact .plain (isPlainChar_ofNat b hplain) h
  · exact .triple (hdigit _ (by omega)) (hdigit _ (by omega)) h

theorem written_escape (bs : Bytes) : Written (escape upperDigits isSlugPlain bs) := by
  induction bs with
  | nil => exact .nil
  | cons b bs ih =>
      rw [escape, List.flatMap_cons]
      exact ih.escapeByte b

theorem Written.eq_percent_or_isPlainChar {t : Text} (h : Written t) :
    ∀ c ∈ t, c = '%' ∨ isPlainChar c := by
  have hdigit : ∀ c ∈ ("0123456789ABCDEF" : Text), isPlainChar c :=
    List.all_eq_true.mp (by decide)
  induction h with
  | nil => exact fun _ hc => absurd hc List.not_mem_nil
  | plain hc _ ih => exact List.forall_mem_cons.mpr ⟨.inr hc, ih⟩
  | triple hhi hlo _ ih =>
      iterate 3 rw [List.forall_mem_cons]
      exact ⟨.inl rfl, .inr (hdigit _ hhi), .inr (hdigit _ hlo), ih⟩

/-- Plain characters are visible ones of ASCII. -/
theorem toNat_of_isPlainChar {c : Char} (h : isPlainChar c) :
    0x21 ≤ c.toNat ∧ c.toNat ≤ 0x7E := by
  have hmarks : ∀ c ∈ ("-_.!~*'()" : Text), 0x21 ≤ c.toNat && c.toNat ≤ 0x7E :=
    List.all_eq_true.mp (by decide)
  rw [isPlainChar, Bool.or_eq_true, decide_eq_true_eq] at h
  rcases h with hrange | hmark
  · simp only [Bool.or_eq_true, Bool.and_eq_true, decide_eq_true_eq, Char.le_def,
      UInt32.le_iff_toNat_le, Char.reduceVal, UInt32.reduceToNat, Char.toNat_val] at hrange
    omega
  · simpa using hmarks c hmark

/-- No white space and no character with a meaning in markup or in a query is ever written. -/
theorem Written.harmless {t : Text} (h : Written t) :
    ∀ c ∈ t, isSpace c = false ∧ c ∉ ['\x00', '"', '<', '>', '&', '+'] := by
  have hothers : ∀ c ∈ ['\x00', '"', '<', '>', '&', '+'], !isPlainChar c :=
    List.all_eq_true.mp (by decide)
  have hgap : inGap 0x21 0x7E := by decide
  intro c hc
  rcases h.eq_percent_or_isPlainChar c hc with rfl | hplain
  · exact ⟨rfl, by decide⟩
  · obtain ⟨hleast, hmost⟩ := toNat_of_isPlainChar hplain
    refine ⟨isSpace_of_inGap hgap (by omega) (by omega), fun hother => ?_⟩
    have hnot := hothers c hother
    rw [hplain] at hnot
    cases hnot

end Percent

section Titles
open Percent

/-- The words of a title in lower case: the nonempty pieces between white space. -/
def lowerWords (title : Text) : List Text :=
  ((title.splitOnP isSpace).filter (· ≠ [])).map Text.lower

theorem slug_eq_escape (title : Text) :
    slug title =
      escape upperDigits isSlugPlain (Utf8.encode (Text.join "-" (lowerWords title))) := by
  rw [slug, Text.words_lower, Text.words_eq_filter_splitOnP, lowerWords]

example : slug "  Token   Transfer\tRules a/b?" = "token-transfer-rules-a%2Fb%3F" := by
  decide +kernel

/-- A slug, read back, gives the lower-cased words of its title with hyphens between them. -/
theorem decode?_unescape?_slug (title : Text) :
    (unescape? (slug title)).bind Utf8.decode? = some (Text.join "-" (lowerWords title)) := by
  rw [slug_eq_escape, unescape?_escape readable_slug, Option.bind_some, Utf8.decode?_encode]

theorem slug_eq_slug_iff {t u : Text} :
    slug t = slug u ↔ Text.join "-" (lowerWords t) = Text.join "-" (lowerWords u) := by
  constructor
  · intro h
    have hread := decode?_unescape?_slug t
    rw [h, decode?_unescape?_slug u] at hread
    exact (Option.some.inj hread).symm
  · intro h
    rw [slug_eq_escape, slug_eq_escape, h]

/-- The percent form of bytes consists of plain characters and of triples with upper-case digits,
and the bytes can be read back from it. So titles share a slug just when their lower-cased words,
joined by hyphens, are the same, and no slug holds white space or a character with a meaning in
markup or in a query. -/
theorem slug_lossless (bs : Bytes) (t u : Text) :
    (Written (escape upperDigits isSlugPlain bs) ∧
      unescape? (escape upperDigits isSlugPlain bs) = some bs) ∧
    (slug t = slug u ↔ Text.join "-" (lowerWords t) = Text.join "-" (lowerWords u)) ∧
    ∀ c ∈ slug t, isSpace c = false ∧ c ∉ ['\x00', '"', '<', '>', '&', '+'] := by
  refine ⟨⟨written_escape bs, unescape?_escape readable_slug bs⟩, slug_eq_slug_iff, ?_⟩
  exact (written_escape _).harmless

theorem slug_lossless_accents :
    slug "Über & <Café>" = slug "\tüber  &\u00A0<CAFÉ> " ∧
      slug "Über & <Café>" ≠ slug "Uber & <Cafe>" ∧
      unescape? (escape upperDigits isSlugPlain [0x25, 0x34, 0x31, 0x00, 0xFF]) =
        some [0x25, 0x34, 0x31, 0x00, 0xFF] ∧
      '%' ∈ slug "Über & <Café>" ∧
      isSpace '%' = false ∧ '%' ∉ ['\x00', '"', '<', '>', '&', '+'] := by
  obtain ⟨⟨-, hread⟩, hsame, hchars⟩ := slug_lossless [0x25, 0x34, 0x31, 0x00, 0xFF]
    "Über & <Café>" "\tüber  &\u00A0<CAFÉ> "
  obtain ⟨-, hother, -⟩ := slug_lossless [] "Über & <Café>" "Uber & <Cafe>"
  have hmem : '%' ∈ slug "Über & <Café>" := by decide +kernel
  exact ⟨hsame.mpr (by decide +kernel), fun h => absurd (hother.mp h) (by decide +kernel), hread,
    hmem, hchars '%' hmem⟩

end Titles

end Marginalia
