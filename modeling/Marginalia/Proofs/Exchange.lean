import Marginalia.Proofs.Locality

/-!
# Exchanging the text behind a place

A script moves over no more characters than there are. If a run comes to a place, every step up to
it stays in front of the place; where none of these steps looks over it, the text behind it may be
exchanged, and the run on the other text comes to the same place with the same segments.
-/
namespace Marginalia

namespace Marker

section Length
variable {t : Text} {n : Nat}

theorem lineEnd_le (t : Text) : lineEnd t ≤ t.length := by
  unfold lineEnd
  split <;> simp

theorem lineLength_le (t : Text) : lineLength t ≤ t.length :=
  (List.takeWhile_prefix _).length_le

theorem wholeLine_le (t : Text) : wholeLine t ≤ t.length := by
  have hline := lineLength_le t
  have hend := lineEnd_le (t.drop (lineLength t))
  rw [List.length_drop] at hend
  rw [wholeLine]
  omega

theorem closingQuote_le {q before : Char} (h : closingQuote q before t = some n) :
    n ≤ t.length := by
  induction t generalizing before n with
  | nil => cases h
  | cons c cs ih =>
      rw [closingQuote] at h
      split at h
      · cases h
        exact Nat.succ_pos _
      · obtain ⟨m, hm, rfl⟩ := Option.map_eq_some_iff.mp h
        exact Nat.succ_le_succ (ih hm)

theorem literal?_le (h : literal? t = some n) : n ≤ t.length := by
  cases t with
  | nil => cases h
  | cons c cs =>
      by_cases hq : IsQuote c
      · rw [literal?_cons hq] at h
        obtain ⟨m, hm, rfl⟩ := Option.map_eq_some_iff.mp h
        exact Nat.succ_le_succ (closingQuote_le hm)
      · rw [literal?_cons_of_not hq] at h
        cases h

theorem blockComment?_le (ho : Text.opens "/*" t) (h : blockComment? t = some n) :
    n ≤ t.length := by
  obtain ⟨⟨body, more⟩, hcut, rfl⟩ := Option.map_eq_some_iff.mp h
  obtain ⟨behind, rfl⟩ := Text.opens_iff.mp ho
  have hlen := congrArg List.length (Text.cut?_eq_some hcut)
  have htwo : ("/*" : Text).length = 2 := rfl
  have htwo' : ("*/" : Text).length = 2 := rfl
  simp only [List.length_append, List.length_drop, htwo, htwo'] at hlen ⊢
  omega

end Length

end Marker

namespace Scanner
open Marker

section Extent
variable {t : Text} {script : List Op}

theorem trailing_le (t : Text) : trailing t ≤ t.length := by
  have hmargin := margin_le_length t
  have hend := lineEnd_le (t.drop (margin t))
  rw [List.length_drop] at hend
  simp only [trailing]
  split <;> omega

theorem planLineComment_extent_le (ho : opensLine t) (hp : planLineComment t = .go script) :
    extent script ≤ t.length := by
  have hwhole := wholeLine_le t
  cases planLineComment_cases hp with
  | drop _ => rwa [extent_dropScript]
  | clear _ => rwa [extent_clearScript]
  | comment _ =>
      have hlead := lineCommentLead_le ho
      have hbody := (Text.dropEnding_isPrefix "\r"
        (Text.firstLine (t.drop (lineCommentLead t)))).length_le.trans (lineLength_le _)
      have hend := lineEnd_le ((t.drop (lineCommentLead t)).drop
        (Text.dropEnding "\r" (Text.firstLine (t.drop (lineCommentLead t)))).length)
      simp only [List.length_drop] at hbody hend
      simp only [extent, commentScript, Op.extent]
      omega

theorem planBase_extent_le (ht : t ≠ []) (hp : planBase t = .go script) :
    extent script ≤ t.length := by
  unfold planBase at hp
  split_ifs at hp with hblock hline
  · cases hp
    have htwo := margin_add_two_le rfl hblock
    simpa [extent, openScript, Op.extent] using htwo
  · exact planLineComment_extent_le hline hp
  all_goals
    cases hp
    exact List.length_pos_iff.mpr ht

theorem planCode_extent_le (ht : t ≠ []) (hp : planCode t = .go script) :
    extent script ≤ t.length := by
  unfold planCode at hp
  split_ifs at hp with hblock hline hend
  · cases hb : blockComment? t with
    | none =>
        rw [hb] at hp
        cases hp
    | some n =>
        rw [hb] at hp
        cases hp
        exact blockComment?_le hblock hb
  · cases hp
    exact wholeLine_le t
  · cases hp
    exact List.length_pos_iff.mpr ht
  · cases hp
    exact lineEnd_le t

theorem planBlock_extent_le {indent : Nat} (ht : t ≠ []) (hp : planBlock indent t = .go script) :
    extent script ≤ t.length := by
  have hmargin : marginUpTo indent t ≤ t.length :=
    (Nat.min_le_right _ _).trans (margin_le_length t)
  rw [planBlock_of_ne_nil ht] at hp
  split at hp
  · next body behind hcut =>
    cases hp
    obtain ⟨-, more, hmore⟩ := Text.cut?_firstLine hcut
    have hlen := congrArg List.length hmore
    have htwo : ("*/" : Text).length = 2 := rfl
    simp only [List.length_append, List.length_drop, htwo] at hlen
    have htrail := trailing_le (((t.drop (marginUpTo indent t)).drop body.length).drop 2)
    simp only [List.length_drop] at htrail
    simp only [extent, closeScript, Op.extent]
    omega
  · cases hp
    have hwhole := wholeLine_le (t.drop (marginUpTo indent t))
    rw [List.length_drop] at hwhole
    simp only [extent, blockLineScript, Op.extent]
    omega

/-- A script does not go over the end of the text. -/
theorem plan_extent_le {mode : Mode} (hp : plan mode t = .go script) :
    extent script ≤ t.length := by
  have hoff : ∀ {p : Plan}, (t ≠ [] → p = .go script → extent script ≤ t.length) →
      planOutside t p = .go script → extent script ≤ t.length := by
    intro p hle hp
    have ht : t ≠ [] := by
      rintro rfl
      cases hp
    rw [planOutside_of_ne_nil ht] at hp
    cases hl : literal? t with
    | none =>
        rw [hl] at hp
        exact hle ht hp
    | some n =>
        rw [hl] at hp
        cases hp
        exact literal?_le hl
  cases mode with
  | base => exact hoff planBase_extent_le hp
  | code => exact hoff planCode_extent_le hp
  | block indent =>
      have ht : t ≠ [] := by
        rintro rfl
        cases hp
      exact planBlock_extent_le ht hp

end Extent

/-- The same scanner in front of another text. -/
def before (s : Scanner) (y : Text) : Scanner := { s with rest := y }

section Before
variable (s : Scanner) (y : Text)

@[simp] theorem before_mode : (s.before y).mode = s.mode := rfl
@[simp] theorem before_rest : (s.before y).rest = y := rfl
@[simp] theorem before_line : (s.before y).line = s.line := rfl
@[simp] theorem before_start? : (s.before y).start? = s.start? := rfl
@[simp] theorem before_held : (s.before y).held = s.held := rfl
@[simp] theorem before_segments : (s.before y).segments = s.segments := rfl

end Before

section Exchange
variable {s t : Scanner} {p y y' : Text}

theorem apply_before {op : Op} (hs : s.rest = p ++ y) (hle : op.extent ≤ p.length) :
    (s.before (p ++ y')).apply op = (s.apply op).before (p.drop op.extent ++ y') := by
  have htake : ∀ r, (p ++ r).take op.extent = p.take op.extent :=
    fun r => List.take_append_of_le_length hle
  have hdrop : ∀ r, (p ++ r).drop op.extent = p.drop op.extent ++ r :=
    fun r => List.drop_append_of_le_length hle
  cases op with
  | skip n =>
      simp only [Op.extent] at htake hdrop ⊢
      simp [apply, before, skip, hs, htake, hdrop]
  | keep n =>
      simp only [Op.extent] at htake hdrop ⊢
      simp only [apply, before, keep, hs, htake, skip]
      split
      · next hnil =>
        rcases List.take_eq_nil_iff.mp hnil with rfl | rfl <;> simp
      · simp [hdrop]
  | begin => rfl
  | flush kind =>
      by_cases hk : kind = .code ∧ s.kept = []
      · simp [apply, before, flush, hk, Op.extent]
      · simp [apply, before, flush, hk, Op.extent]
  | enter mode => rfl

theorem perform_before {script : List Op} (hs : s.rest = p ++ y)
    (hle : extent script ≤ p.length) :
    (s.before (p ++ y')).perform script =
      (s.perform script).before (p.drop (extent script) ++ y') := by
  induction script generalizing s p with
  | nil => rfl
  | cons op script ih =>
      rw [extent_cons] at hle
      have hop : op.extent ≤ p.length := by omega
      have hrest : (s.apply op).rest = p.drop op.extent ++ y := by
        rw [apply_rest, hs, List.drop_append_of_le_length hop]
      rw [perform_cons, perform_cons, apply_before hs hop,
        ih hrest (by rw [List.length_drop]; omega), extent_cons, List.drop_drop]

theorem Reaches.rest_length_le (h : Reaches s t) : t.rest.length ≤ s.rest.length := by
  induction h with
  | refl s => exact Nat.le_refl _
  | step hstep _ ih => exact ih.trans (step_next_lt hstep).le

/-- Behind a place that a run comes to, one text may stand for another if that changes no step in
front of the place. -/
theorem Reaches.exchange
    (hplan : ∀ a mode script, a ≠ [] → a <:+ p → plan mode (a ++ y) = .go script →
      extent script ≤ a.length → plan mode (a ++ y') = .go script)
    (h : Reaches s t) (hs : s.rest = p ++ y) (ht : t.rest = y) :
    Reaches (s.before (p ++ y')) (t.before y') := by
  induction h generalizing p with
  | refl s =>
      obtain rfl : p = [] := List.append_left_eq_self.mp (hs.symm.trans ht)
      exact .refl _
  | @step s r t hstep hreach ih =>
      obtain ⟨script, hgo, rfl⟩ := step_next_iff.mp hstep
      have hlt := step_next_lt hstep
      have hlen := hreach.rest_length_le
      rw [perform_rest] at hlt hlen
      rw [hs] at hgo
      have hext := plan_extent_le hgo
      rw [ht, hs, List.length_drop] at hlen
      rw [hs, List.length_drop] at hlt
      rw [List.length_append] at hlen hlt hext
      have hle : extent script ≤ p.length := by omega
      have hp : p ≠ [] := by
        rintro rfl
        rw [List.length_nil] at hle
        omega
      have hgo' := hplan p s.mode script hp (List.suffix_refl p) hgo hle
      refine .step (step_next_iff.mpr ⟨script, hgo', perform_before hs hle⟩) (ih ?_ ?_ ht)
      · intro a mode script ha hsuffix
        exact hplan a mode script ha (hsuffix.trans (List.drop_suffix _ p))
      · rw [perform_rest, hs, List.drop_append_of_le_length hle]

end Exchange

end Scanner

end Marginalia
