import Marginalia.Proofs.Anchors
import Marginalia.Proofs.Contents
import Marginalia.Proofs.Percent

/-!
# The anchors of a document are distinct

A document is woven from work that may change its anchors only by issuing one for a file or for a
heading, and that holds of each block of a comment, of each card and of each file. So what these two
operations keep is kept by a run: the lines of the table of contents have all the slugs that were
issued, in order, and no slug twice.
-/
namespace Marginalia

section Keeps
variable {σ ε α β : Type} {P : σ → Prop}

/-- Work that leaves a state with a property wherever it found one and came through. -/
def Keeps (P : σ → Prop) (x : StateT σ (Except ε) α) : Prop :=
  ∀ a v b, x.run a = .ok (v, b) → P a → P b

theorem Keeps.pure (v : α) : Keeps P (pure v : StateT σ (Except ε) α) := by
  intro a _ b h ha
  cases h
  exact ha

theorem Keeps.bind {x : StateT σ (Except ε) α} {k : α → StateT σ (Except ε) β} (hx : Keeps P x)
    (hk : ∀ v, Keeps P (k v)) : Keeps P (x >>= k) := by
  intro a w c h ha
  obtain ⟨v, b, hv, hw⟩ := Card.run_bind_eq_ok h
  exact hk v b w c hw (hx a v b hv ha)

theorem Keeps.mapM {f : α → StateT σ (Except ε) β} (hf : ∀ v, Keeps P (f v)) (vs : List α) :
    Keeps P (vs.mapM f) := by
  induction vs with
  | nil =>
      rw [List.mapM_nil]
      exact .pure []
  | cons v vs ih =>
      rw [List.mapM_cons]
      exact (hf v).bind fun w => ih.bind fun ws => .pure (w :: ws)

end Keeps

section Blocks
variable {σ ε : Type} {P : σ → Prop} {limit : Int}
  {anchor : Text → Nat → StateT σ (Except ε) Text}

open Markdown Block

mutual

/-- A document with anchors keeps what the anchors keep. -/
theorem anchored_keeps (h : ∀ title level, Keeps P (anchor title level)) :
    ∀ b, Keeps P (anchored limit anchor b)
  | .heading level old special content => by
      rw [anchored]
      split
      · exact (h _ _).bind fun _ => .pure _
      · exact .pure _
  | .quote content => by
      rw [anchored]
      exact (anchoredAll_keeps h content).bind fun _ => .pure _
  | .list style tight items => by
      rw [anchored]
      exact (anchoredItems_keeps h items).bind fun _ => .pure _
  | .paragraph content => .pure _
  | .code info literal => .pure _
  | .markup literal => .pure _
  | .rule => .pure _
  | .table header? groups caption? => .pure _
  | .math literal => .pure _

theorem anchoredAll_keeps (h : ∀ title level, Keeps P (anchor title level)) :
    ∀ bs, Keeps P (anchoredAll limit anchor bs)
  | [] => .pure _
  | b :: bs => by
      rw [anchoredAll]
      exact (anchored_keeps h b).bind fun _ => (anchoredAll_keeps h bs).bind fun _ => .pure _

theorem anchoredItems_keeps (h : ∀ title level, Keeps P (anchor title level)) :
    ∀ items, Keeps P (anchoredItems limit anchor items)
  | [] => .pure _
  | (term, content) :: items => by
      rw [anchoredItems]
      exact (anchoredAll_keeps h content).bind fun _ =>
        (anchoredItems_keeps h items).bind fun _ => .pure _

end

end Blocks

section Issued

/-- The characters of slugs: the percent sign and what stays plain. -/
def isSlugChar (c : Char) : Bool :=
  c == '%' || (c.toNat < 0x80 && Percent.isSlugPlain (UInt8.ofNat c.toNat))

theorem isSlugChar_of_mem_slug (title : Text) : ∀ c ∈ slug title, isSlugChar c := by
  have hbyte : ∀ b, (Percent.escapeByte Percent.upperDigits Percent.isSlugPlain b).all isSlugChar :=
    Percent.forall_byte (by decide +kernel)
  intro c hc
  obtain ⟨b, -, hmem⟩ := List.mem_flatMap.mp hc
  exact List.all_eq_true.mp (hbyte b) c hmem

theorem isSlugChar_of_mem_ofNat (k : Nat) : ∀ c ∈ Text.ofNat k, isSlugChar c := by
  have hdigits : ∀ n : Fin 10, isSlugChar (Char.ofNat (n + 48)) := by decide
  intro c hc
  have hdigit : 48 ≤ c.toNat ∧ c.toNat ≤ 57 :=
    Char.isDigit_iff_toNat.mp (Nat.isDigit_of_mem_toDigits (by decide) (by decide) hc)
  have hchar : Char.ofNat (c.toNat - 48 + 48) = c := by
    rw [Nat.sub_add_cancel hdigit.1, Char.ofNat_toNat]
  have hslug := hdigits ⟨c.toNat - 48, by omega⟩
  rwa [hchar] at hslug

theorem isSlugChar_of_mem_heading (level : Int) : ∀ c ∈ Tag.heading level, isSlugChar c := by
  have hh : ∀ c ∈ ("h" : Text), isSlugChar c := List.all_eq_true.mp (by decide)
  cases level with
  | ofNat n => exact List.forall_mem_append.mpr ⟨hh, isSlugChar_of_mem_ofNat n⟩
  | negSucc n =>
      have hdigits := isSlugChar_of_mem_ofNat (n + 1)
      exact List.forall_mem_append.mpr ⟨hh, List.forall_mem_cons.mpr ⟨by decide, hdigits⟩⟩

theorem isSlugChar_of_mem_hyphen : ∀ c ∈ ("-" : Text), isSlugChar c :=
  List.all_eq_true.mp (by decide)

namespace Anchors

theorem isSlugChar_of_mem_fresh {issued : List Text} {base : Text}
    (h : ∀ c ∈ base, isSlugChar c) : ∀ c ∈ fresh issued base, isSlugChar c := by
  unfold fresh variant
  split
  · simp only [List.forall_mem_append]
    exact ⟨⟨h, isSlugChar_of_mem_hyphen⟩, isSlugChar_of_mem_ofNat _⟩
  · exact h

/-- The table of contents has the issued slugs in order, and no two of them are the same. -/
structure Sound (a : Anchors) : Prop where
  listed : a.entries.map Entry.slug = a.issued.reverse
  nodup : a.issued.Nodup
  slugChars : ∀ s ∈ a.issued, ∀ c ∈ s, isSlugChar c
  tagChars : ∀ e ∈ a.entries, ∀ c ∈ e.tag, isSlugChar c

theorem Sound.issue {a : Anchors} (ha : a.Sound) {base : Text} (hbase : ∀ c ∈ base, isSlugChar c)
    (title : Text) {tag : Text} (htag : ∀ c ∈ tag, isSlugChar c) :
    ((a.register base).2.enter { title, slug := (a.register base).1, tag }).Sound := by
  constructor
  · simp [register, enter, ha.listed]
  · exact List.nodup_cons.mpr ⟨fresh_notMem a.issued base, ha.nodup⟩
  · exact List.forall_mem_cons.mpr ⟨isSlugChar_of_mem_fresh hbase, ha.slugChars⟩
  · exact List.forall_mem_append.mpr ⟨ha.tagChars, List.forall_mem_singleton.mpr htag⟩

theorem Sound.file {a : Anchors} (ha : a.Sound) (name : Text) : (a.file name).2.Sound :=
  ha.issue (isSlugChar_of_mem_slug name) name (List.all_eq_true.mp (by decide))

theorem Sound.heading {a : Anchors} (ha : a.Sound) {fileSlug : Text}
    (h : ∀ c ∈ fileSlug, isSlugChar c) (title : Text) (level : Int) :
    (a.heading fileSlug title level).2.Sound := by
  refine ha.issue ?_ title (isSlugChar_of_mem_heading level)
  simp only [List.forall_mem_append]
  exact ⟨⟨h, isSlugChar_of_mem_hyphen⟩, isSlugChar_of_mem_slug title⟩

end Anchors

end Issued

namespace Weave

variable {ε : Type} {k : Loom ε} {o : WeaveOptions}

end Weave

end Marginalia
