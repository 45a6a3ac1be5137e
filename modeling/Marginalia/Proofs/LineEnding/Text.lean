import Marginalia.Proofs.FirstLine

/-!
# Texts with carriage returns

`withReturns` puts a carriage return in front of every line feed. A span of a text has a
counterpart, the same span with returns put in, and what the functions of `Marker` measure in the
text with returns is the counterpart of what they measure in the plain text.
-/
namespace Marginalia

namespace Text

/-- Puts a carriage return in front of every line feed. -/
def withReturns (t : Text) : Text := t.expand fun c => if c = '\n' then "\r\n" else [c]

@[simp] theorem withReturns_nil : withReturns [] = [] := rfl

@[simp] theorem withReturns_newline (t : Text) :
    withReturns ('\n' :: t) = '\r' :: '\n' :: withReturns t := rfl

theorem withReturns_cons {c : Char} (hc : c ≠ '\n') (t : Text) :
    withReturns (c :: t) = c :: withReturns t := by
  simp [withReturns, expand, hc]

@[simp] theorem withReturns_append (a b : Text) :
    withReturns (a ++ b) = withReturns a ++ withReturns b := by
  simp [withReturns, expand]

theorem withReturns_of_notMem {t : Text} (h : '\n' ∉ t) : withReturns t = t := by
  induction t with
  | nil => rfl
  | cons c cs ih =>
      obtain ⟨hc, hcs⟩ := not_or.mp (mt List.mem_cons.mpr h)
      rw [withReturns_cons (Ne.symm hc), ih hcs]

theorem withReturns_line {line : Text} (h : '\n' ∉ line) (y : Text) :
    withReturns (line ++ '\n' :: y) = (line ++ ['\r']) ++ '\n' :: withReturns y := by
  rw [withReturns_append, withReturns_of_notMem h, withReturns_newline, List.append_assoc,
    List.singleton_append]

@[simp] theorem withReturns_eq_nil_iff {t : Text} : withReturns t = [] ↔ t = [] := by
  cases t with
  | nil => simp
  | cons c cs =>
      by_cases hc : c = '\n'
      · simp [hc]
      · simp [withReturns_cons hc]

@[simp] theorem newlines_withReturns (t : Text) : newlines (withReturns t) = newlines t := by
  induction t with
  | nil => rfl
  | cons c cs ih =>
      by_cases hc : c = '\n'
      · simpa [hc, newlines] using ih
      · simpa [withReturns_cons hc, newlines, hc] using ih

theorem withReturns_take_append_drop (t : Text) (n : Nat) :
    withReturns t = withReturns (t.take n) ++ withReturns (t.drop n) := by
  rw [← withReturns_append, List.take_append_drop]

/-- The first `n` characters of a text, with returns, are the first `n'` characters of the text with
returns. -/
def Spans (t : Text) (n n' : Nat) : Prop := (withReturns t).take n' = withReturns (t.take n)

theorem spans_length (t : Text) (n : Nat) : Spans t n (withReturns (t.take n)).length := by
  rw [Spans, withReturns_take_append_drop t n, List.take_left]

theorem spans_of_notMem {t : Text} {n : Nat} (h : '\n' ∉ t.take n) : Spans t n n := by
  have hlen : (t.take n).length = min n t.length := List.length_take
  rw [Spans, withReturns_take_append_drop t n, withReturns_of_notMem h]
  rcases Nat.le_total n t.length with hn | hn
  · rw [Nat.min_eq_left hn] at hlen
    exact List.take_left' hlen
  · rw [List.drop_of_length_le hn, withReturns_nil, List.append_nil, List.take_take, Nat.min_self]

theorem Spans.drop {t : Text} {n n' : Nat} (h : Spans t n n') :
    (withReturns t).drop n' = withReturns (t.drop n) := by
  have hsplit := withReturns_take_append_drop t n
  rw [← h] at hsplit
  have hself := (List.take_append_drop n' (withReturns t)).trans hsplit
  exact List.append_cancel_left hself

theorem Spans.add {t : Text} {m m' n n' : Nat} (h₁ : Spans t m m') (h₂ : Spans (t.drop m) n n') :
    Spans t (m + n) (m' + n') := by
  rw [Spans, List.take_add, h₁.drop, h₂, h₁, ← withReturns_append, ← List.take_add]

end Text

namespace Marker
open Text

/-- What depends only on the text in front of a stop is the same with returns. -/
theorem withReturns_of_stop {α : Type} {f : Text → α}
    (hf : ∀ a e y, isStop e → f (a ++ e :: y) = f a) (t : Text) : f (withReturns t) = f t := by
  rcases eq_line_or_append t with h | ⟨line, more, h, rfl⟩
  · rw [withReturns_of_notMem h]
  · rw [withReturns_line h, hf _ _ _ (by decide), hf _ _ _ (by decide), hf _ _ _ (by decide)]

@[simp] theorem margin_withReturns (t : Text) : margin (withReturns t) = margin t :=
  withReturns_of_stop (fun _ _ _ he => margin_append_stop he) t

@[simp] theorem marginUpTo_withReturns (limit : Nat) (t : Text) :
    marginUpTo limit (withReturns t) = marginUpTo limit t := by
  rw [marginUpTo, margin_withReturns, marginUpTo]

@[simp] theorem opensBlock_withReturns (t : Text) : opensBlock (withReturns t) = opensBlock t :=
  withReturns_of_stop (fun _ _ _ he => opensBlock_append_stop he) t

@[simp] theorem opensLine_withReturns (t : Text) : opensLine (withReturns t) = opensLine t :=
  withReturns_of_stop (fun _ _ _ he => opensLine_append_stop he) t

@[simp] theorem isLicenseTag_withReturns (t : Text) :
    isLicenseTag (withReturns t) = isLicenseTag t :=
  withReturns_of_stop (fun _ _ _ he => isLicenseTag_append_stop he) t

theorem opens_withReturns {marker : Text} (hm : marker.any isStop = false) (t : Text) :
    opens marker (withReturns t) = opens marker t :=
  withReturns_of_stop (fun _ _ _ he => opens_append_cons (notMem_of_isStop he hm)) t

theorem lineCommentLead_withReturns {t : Text} (ho : opensLine t) :
    lineCommentLead (withReturns t) = lineCommentLead t := by
  rcases eq_line_or_append t with h | ⟨line, more, h, rfl⟩
  · rw [withReturns_of_notMem h]
  · rw [opensLine_append_stop (by decide)] at ho
    have ho' : opensLine (line ++ ['\r']) := by rwa [opensLine_append_stop (by decide)]
    rw [withReturns_line h, lineCommentLead_append_stop (by decide) ho',
      lineCommentLead_append_stop (by decide) ho, lineCommentLead_append_stop (by decide) ho]

@[simp] theorem directive?_withReturns (t : Text) : directive? (withReturns t) = directive? t := by
  rcases eq_line_or_append t with h | ⟨line, more, h, rfl⟩
  · rw [withReturns_of_notMem h]
  · have hfree : '\n' ∉ line ++ ['\r'] := by simpa using h
    rw [withReturns_line h, directive?_append_newline hfree, directive?_append_return h,
      directive?_append_newline h]

theorem spans_wholeLine (t : Text) : Spans t (wholeLine t) (wholeLine (withReturns t)) := by
  rcases eq_line_or_append t with h | ⟨line, more, h, rfl⟩
  · rw [withReturns_of_notMem h]
    exact spans_of_notMem fun hm => h (List.mem_of_mem_take hm)
  · have hfree : '\n' ∉ line ++ ['\r'] := by simpa using h
    rw [Spans, withReturns_line h, wholeLine_append_newline hfree, wholeLine_append_newline h,
      List.take_length_add_append, List.take_length_add_append]
    simp [withReturns_of_notMem h]

theorem closingQuote_withReturns {q : Char} (hr : q ≠ '\r') (hn : q ≠ '\n') (before : Char)
    (t : Text) : closingQuote q before (withReturns t) =
      (closingQuote q before t).map fun n => (withReturns (t.take n)).length := by
  induction t generalizing before with
  | nil => rfl
  | cons c cs ih =>
      by_cases hc : c = '\n'
      · subst hc
        simp [closingQuote, hr.symm, hn.symm, ih, Function.comp_def]
      · rw [withReturns_cons hc, closingQuote, closingQuote]
        split
        · simp [withReturns_cons hc]
        · simp [ih, Function.comp_def, withReturns_cons hc]

theorem literal?_withReturns (t : Text) : literal? (withReturns t) =
    (literal? t).map fun n => (withReturns (t.take n)).length := by
  cases t with
  | nil => rfl
  | cons c cs =>
      by_cases hc : c = '\n'
      · subst hc
        rfl
      · rw [withReturns_cons hc, literal?, literal?]
        split
        · next hq =>
          have hr : c ≠ '\r' := by rcases hq with rfl | rfl <;> decide
          simp [closingQuote_withReturns hr hc, Function.comp_def, withReturns_cons hc]
        · rfl

theorem dropOpening?_withReturns {marker : Text} (hm : marker.any isStop = false) (t : Text) :
    dropOpening? marker (withReturns t) = (dropOpening? marker t).map withReturns := by
  induction marker generalizing t with
  | nil => rfl
  | cons o os ih =>
      obtain ⟨ho, hos⟩ := Bool.or_eq_false_iff.mp (List.any_cons ▸ hm)
      cases t with
      | nil => rfl
      | cons c cs =>
          by_cases hc : c = '\n'
          · subst hc
            have hr : o ≠ '\r' := by rintro rfl; cases ho
            have hn : o ≠ '\n' := by rintro rfl; cases ho
            simp [dropOpening?, hr, hn]
          · rw [withReturns_cons hc, dropOpening?, dropOpening?]
            split
            · exact ih hos cs
            · rfl

theorem cut?_withReturns {marker : Text} (hm : marker ≠ []) (hstop : marker.any isStop = false)
    (t : Text) : cut? marker (withReturns t) =
      (cut? marker t).map fun p => (withReturns p.1, withReturns p.2) := by
  induction t with
  | nil => simp [cut?, hm]
  | cons c cs ih =>
      have hopen := dropOpening?_withReturns hstop (c :: cs)
      by_cases hc : c = '\n'
      · subst hc
        have hnone : ∀ e y, isStop e → dropOpening? marker (e :: y) = none := by
          intro e y he
          have hnil : dropOpening? marker [] = none := by
            cases marker with
            | nil => exact absurd rfl hm
            | cons o os => rfl
          have := dropOpening?_append_cons (a := []) (y := y) (notMem_of_isStop he hstop)
          rwa [hnil] at this
        rw [withReturns_newline, cut?, hnone '\r' _ (by decide), cut?, hnone '\n' _ (by decide),
          cut?, hnone '\n' _ (by decide), ih]
        simp [Function.comp_def]
      · rw [withReturns_cons hc] at hopen ⊢
        rw [cut?, hopen, cut?]
        cases dropOpening? marker (c :: cs) with
        | none => simp [ih, Function.comp_def, withReturns_cons hc]
        | some behind => rfl

theorem blockComment?_withReturns {t : Text} (ho : opens "/*" t) :
    blockComment? (withReturns t) =
      (blockComment? t).map fun n => (withReturns (t.take n)).length := by
  obtain ⟨behind, rfl⟩ := opens_iff.mp ho
  have hdrop : (withReturns ("/*" ++ behind)).drop 2 = withReturns behind := rfl
  have hdrop' : (("/*" : Text) ++ behind).drop 2 = behind := rfl
  rw [blockComment?, blockComment?, hdrop, hdrop', cut?_withReturns (by decide) (by decide)]
  cases hcut : cut? "*/" behind with
  | none => rfl
  | some p =>
      obtain ⟨body, more⟩ := p
      have htake : (("/*" : Text) ++ behind).take (body.length + 4) = "/*" ++ body ++ "*/" := by
        rw [cut?_eq_some hcut, ← List.append_assoc, ← List.append_assoc]
        exact List.take_left' (by simp)
      have hw : withReturns ("/*" ++ body ++ "*/") = "/*" ++ withReturns body ++ "*/" := by
        rw [withReturns_append, withReturns_append]
        rfl
      have htwo : ("/*" : Text).length = 2 ∧ ("*/" : Text).length = 2 := ⟨rfl, rfl⟩
      simp only [Option.map_some, htake, hw, List.length_append, htwo, Option.some.injEq]
      omega

/-- Where there are no returns, the line end with a return is the counterpart of a line feed. -/
theorem spans_lineEnd {t : Text} (h : '\r' ∉ t) :
    Spans t (lineEnd t) (lineEnd (withReturns t)) := by
  cases t with
  | nil => rfl
  | cons c cs =>
      by_cases hc : c = '\n'
      · subst hc
        rfl
      · have hr : c ≠ '\r' := by
          rintro rfl
          exact h List.mem_cons_self
        have h0 : ∀ y, lineEnd (c :: y) = 0 := by
          intro y
          unfold lineEnd
          split <;> simp_all
        rw [withReturns_cons hc, h0, h0]
        rfl

theorem lineEnd_withReturns_eq_zero {t : Text} (h : '\r' ∉ t) :
    lineEnd (withReturns t) = 0 ↔ lineEnd t = 0 := by
  have hspan := spans_lineEnd h
  constructor
  · intro h0
    rw [h0, Spans, List.take_zero, eq_comm, withReturns_eq_nil_iff, List.take_eq_nil_iff] at hspan
    rcases hspan with h1 | rfl
    · exact h1
    · rfl
  · intro h0
    rw [h0, Spans, List.take_zero, withReturns_nil, List.take_eq_nil_iff] at hspan
    rcases hspan with h1 | h1
    · exact h1
    · rw [h1]
      rfl

end Marker

namespace Text

/-- The return at the end of a line is not part of its words. -/
theorem words_withReturns {t : Text} (h : '\r' ∉ t) :
    dropEnding "\r" (firstLine (withReturns t)) = dropEnding "\r" (firstLine t) := by
  rcases eq_line_or_append t with hl | ⟨line, more, hl, rfl⟩
  · rw [withReturns_of_notMem hl]
  · have hfree : '\n' ∉ line ++ ['\r'] := by simpa using hl
    have hline : '\r' ∉ line := fun hr => h (List.mem_append_left _ hr)
    rw [withReturns_line hl, firstLine_append_newline hfree, firstLine_append_newline hl]
    exact (dropEnding_append "\r" line).trans (dropEnding_of_notMem hline).symm

theorem spans_words (t : Text) :
    Spans t (dropEnding "\r" (firstLine t)).length (dropEnding "\r" (firstLine t)).length := by
  have hpre := dropEnding_isPrefix "\r" (firstLine t)
  have htake : t.take (dropEnding "\r" (firstLine t)).length = dropEnding "\r" (firstLine t) :=
    (List.prefix_iff_eq_take.mp (hpre.trans (List.takeWhile_prefix _))).symm
  apply spans_of_notMem
  rw [htake]
  exact fun h => newline_notMem_firstLine t (hpre.subset h)

end Text

end Marginalia
