import Marginalia.Proofs.LineEnding.Text
import Marginalia.Proofs.TwoRuns

/-!
# Scanning a text with carriage returns

The scanner of a text with returns follows the scanner of the plain text step by step: the script of
its step moves over the counterparts of the spans that the other script moves over. Only a line feed
in base mode takes it two steps, one for the return and one for the line feed. So it finds the same
segments, with returns in their contents, or fails at the same place.
-/
namespace Marginalia

namespace Scanner
open Text

/-- Two scripts that do the same, the second one on the text with returns. -/
inductive Mirrors : Text → List Op → List Op → Prop
  | nil {t : Text} : Mirrors t [] []
  | skip {t : Text} {n n' : Nat} {ops ops' : List Op} : Spans t n n' →
      Mirrors (t.drop n) ops ops' → Mirrors t (.skip n :: ops) (.skip n' :: ops')
  | keep {t : Text} {n n' : Nat} {ops ops' : List Op} : Spans t n n' →
      Mirrors (t.drop n) ops ops' → Mirrors t (.keep n :: ops) (.keep n' :: ops')
  | begin {t : Text} {ops ops' : List Op} : Mirrors t ops ops' →
      Mirrors t (.begin :: ops) (.begin :: ops')
  | flush {t : Text} {kind : Kind} {ops ops' : List Op} : Mirrors t ops ops' →
      Mirrors t (.flush kind :: ops) (.flush kind :: ops')
  | enter {t : Text} {mode : Mode} {ops ops' : List Op} : Mirrors t ops ops' →
      Mirrors t (.enter mode :: ops) (.enter mode :: ops')

/-- Two plans that do the same, the second one on the text with returns. -/
inductive Plan.Mirrors (t : Text) : Plan → Plan → Prop
  | go {script script' : List Op} : Scanner.Mirrors t script script' →
      Plan.Mirrors t (.go script) (.go script')
  | stop : Plan.Mirrors t .stop .stop
  | fail {fault : Fault} : Plan.Mirrors t (.fail fault) (.fail fault)

section Plans
variable {t : Text}

theorem mirrors_keep {n n' : Nat} {mode : Mode} (h : Spans t n n') :
    Plan.Mirrors t (.go [.keep n, .enter mode]) (.go [.keep n', .enter mode]) :=
  .go (.keep h (.enter .nil))

theorem mirrors_dropScript (t : Text) : Mirrors t (dropScript t) (dropScript (withReturns t)) :=
  .skip (Marker.spans_wholeLine t) (.enter .nil)

theorem mirrors_clearScript (t : Text) : Mirrors t (clearScript t) (clearScript (withReturns t)) :=
  .flush (.begin (.skip (Marker.spans_wholeLine t) (.flush (.enter .nil))))

theorem mirrors_commentScript (h : '\r' ∉ t) (ho : Marker.opensLine t) :
    Mirrors t (commentScript t) (commentScript (withReturns t)) := by
  obtain ⟨margin, gap, hm, hg, htake⟩ := Marker.take_lineCommentLead ho
  have hlead : Spans t (Marker.lineCommentLead t) (Marker.lineCommentLead t) := by
    apply spans_of_notMem
    rw [htake]
    simp only [List.mem_append, not_or]
    exact ⟨⟨hm.newline_notMem, by decide⟩, hg.newline_notMem⟩
  simp only [commentScript, Marker.lineCommentLead_withReturns ho, hlead.drop]
  have hbehind : '\r' ∉ t.drop (Marker.lineCommentLead t) := fun hr => h (List.mem_of_mem_drop hr)
  rw [words_withReturns hbehind]
  have hbody := spans_words (t.drop (Marker.lineCommentLead t))
  refine .flush (.begin (.skip hlead (.keep hbody (.skip ?_ (.flush (.enter .nil))))))
  rw [hbody.drop]
  exact Marker.spans_lineEnd fun hr => hbehind (List.mem_of_mem_drop hr)

theorem mirrors_openScript (ho : Marker.opensBlock t) :
    Mirrors t (openScript t) (openScript (withReturns t)) := by
  have hspan : Spans t (Marker.margin t + 2) (Marker.margin t + 2) := by
    apply spans_of_notMem
    rw [Marker.take_blockOpener ho, List.mem_append, not_or]
    exact ⟨(Marker.blanks_take_margin t).newline_notMem, by decide⟩
  simp only [openScript, Marker.margin_withReturns]
  exact .flush (.begin (.skip hspan (.enter .nil)))

theorem spans_marginUpTo (limit : Nat) (t : Text) :
    Spans t (Marker.marginUpTo limit t) (Marker.marginUpTo limit t) :=
  spans_of_notMem (Marker.blanks_take_marginUpTo limit t).newline_notMem

theorem spans_trailing (h : '\r' ∉ t) : Spans t (trailing t) (trailing (withReturns t)) := by
  have hmargin : Spans t (Marker.margin t) (Marker.margin t) :=
    spans_of_notMem (Marker.blanks_take_margin t).newline_notMem
  have hrest : '\r' ∉ t.drop (Marker.margin t) := fun hr => h (List.mem_of_mem_drop hr)
  have hend := Marker.spans_lineEnd hrest
  simp only [trailing, Marker.margin_withReturns, hmargin.drop,
    Marker.lineEnd_withReturns_eq_zero hrest]
  split
  · rfl
  · exact hmargin.add hend

theorem mirrors_blockLineScript (indent : Nat) (t : Text) :
    Mirrors t (blockLineScript indent t) (blockLineScript indent (withReturns t)) := by
  have hmargin := spans_marginUpTo indent t
  simp only [blockLineScript, Marker.marginUpTo_withReturns, hmargin.drop]
  exact .skip hmargin (.keep (Marker.spans_wholeLine _) (.enter .nil))

theorem mirrors_closeScript {indent : Nat} {body behind : Text} (h : '\r' ∉ t)
    (hcut : cut? "*/" (firstLine (t.drop (Marker.marginUpTo indent t))) = some (body, behind)) :
    Mirrors t (closeScript indent t body) (closeScript indent (withReturns t) body) := by
  have hmargin := spans_marginUpTo indent t
  obtain ⟨hfree, more, hmore⟩ := cut?_firstLine hcut
  have hbody : Spans (t.drop (Marker.marginUpTo indent t)) body.length body.length := by
    apply spans_of_notMem
    rwa [hmore, List.take_left]
  have htwo : Spans ((t.drop (Marker.marginUpTo indent t)).drop body.length) 2 2 := by
    apply spans_of_notMem
    have htake : (("*/" : Text) ++ more).take 2 = "*/" := rfl
    rw [hmore, List.drop_left, htake]
    decide
  simp only [closeScript, Marker.marginUpTo_withReturns, hmargin.drop, hbody.drop, htwo.drop]
  refine .skip hmargin (.keep hbody (.skip htwo (.skip ?_ (.flush (.enter .nil)))))
  apply spans_trailing
  intro hr
  exact h (List.mem_of_mem_drop (List.mem_of_mem_drop (List.mem_of_mem_drop hr)))

theorem planLineComment_mirrors (h : '\r' ∉ t) (ho : Marker.opensLine t) :
    Plan.Mirrors t (planLineComment t) (planLineComment (withReturns t)) := by
  unfold planLineComment
  rw [Marker.isLicenseTag_withReturns, Marker.directive?_withReturns]
  split_ifs
  · exact .go (mirrors_dropScript t)
  · cases Marker.directive? t with
    | none => exact .go (mirrors_commentScript h ho)
    | some flag =>
        simp only
        split_ifs
        · exact .go (mirrors_dropScript t)
        · exact .go (mirrors_clearScript t)
        · exact .fail

theorem planBase_mirrors (h : '\r' ∉ t) (hhead : t.head? ≠ some '\n') :
    Plan.Mirrors t (planBase t) (planBase (withReturns t)) := by
  have hsame : (withReturns t).head? = t.head? := by
    cases t with
    | nil => rfl
    | cons c cs =>
        rw [withReturns_cons (by simpa using hhead)]
        rfl
  have hone : Spans t 1 1 := by
    apply spans_of_notMem
    cases t with
    | nil => simp
    | cons c cs => simpa [eq_comm] using hhead
  unfold planBase
  rw [Marker.opensBlock_withReturns, Marker.opensLine_withReturns, hsame]
  split_ifs with hb hl
  · exact .go (mirrors_openScript hb)
  · exact planLineComment_mirrors h hl
  · exact mirrors_keep hone
  · exact mirrors_keep hone

theorem planCode_mirrors (h : '\r' ∉ t) :
    Plan.Mirrors t (planCode t) (planCode (withReturns t)) := by
  unfold planCode
  rw [Marker.opens_withReturns (by decide), Marker.opens_withReturns (by decide)]
  simp only [Marker.lineEnd_withReturns_eq_zero h]
  split_ifs with hb hl he
  · rw [Marker.blockComment?_withReturns hb]
    cases Marker.blockComment? t with
    | none => exact .fail
    | some n => exact mirrors_keep (spans_length t n)
  · exact mirrors_keep (Marker.spans_wholeLine t)
  · apply mirrors_keep
    apply spans_of_notMem
    cases t with
    | nil => simp
    | cons c cs =>
        rw [List.take_succ_cons, List.take_zero, List.mem_singleton]
        rintro rfl
        cases he
  · exact mirrors_keep (Marker.spans_lineEnd h)

theorem cut?_firstLine_withReturns (t : Text) :
    (cut? "*/" (firstLine (withReturns t))).map Prod.fst =
      (cut? "*/" (firstLine t)).map Prod.fst := by
  rcases eq_line_or_append t with h | ⟨line, more, h, rfl⟩
  · rw [withReturns_of_notMem h]
  · rw [withReturns_line h, firstLine_append_newline (by simpa using h), firstLine_append_newline h]
    exact cut?_append_singleton (by decide) (by decide) line

theorem planBlock_mirrors (indent : Nat) (h : '\r' ∉ t) :
    Plan.Mirrors t (planBlock indent t) (planBlock indent (withReturns t)) := by
  by_cases hne : t = []
  · subst hne
    exact .fail
  · have hsame := cut?_firstLine_withReturns (t.drop (Marker.marginUpTo indent t))
    rw [planBlock_of_ne_nil hne, planBlock_of_ne_nil (mt withReturns_eq_nil_iff.mp hne),
      Marker.marginUpTo_withReturns, (spans_marginUpTo indent t).drop]
    cases hcut : cut? "*/" (firstLine (t.drop (Marker.marginUpTo indent t))) with
    | none =>
        rw [hcut, Option.map_none, Option.map_eq_none_iff] at hsame
        rw [hsame]
        exact .go (mirrors_blockLineScript indent t)
    | some p =>
        rw [hcut, Option.map_some, Option.map_eq_some_iff] at hsame
        obtain ⟨p', hp', hbody⟩ := hsame
        rw [hp']
        simp only [hbody]
        exact .go (mirrors_closeScript h hcut)

theorem planOutside_mirrors {p p' : Plan} (h : Plan.Mirrors t p p') :
    Plan.Mirrors t (planOutside t p) (planOutside (withReturns t) p') := by
  by_cases hne : t = []
  · subst hne
    exact .stop
  · rw [planOutside_of_ne_nil hne, planOutside_of_ne_nil (mt withReturns_eq_nil_iff.mp hne),
      Marker.literal?_withReturns]
    cases Marker.literal? t with
    | none => exact h
    | some n => exact mirrors_keep (spans_length t n)

/-- Except at a line feed in base mode, the plans for both texts do the same. -/
theorem plan_mirrors {mode : Mode} (h : '\r' ∉ t) (hhead : mode = .base → t.head? ≠ some '\n') :
    Plan.Mirrors t (plan mode t) (plan mode (withReturns t)) := by
  cases mode with
  | base => exact planOutside_mirrors (planBase_mirrors h (hhead rfl))
  | code => exact planOutside_mirrors (planCode_mirrors h)
  | block indent => exact planBlock_mirrors indent h

end Plans

end Scanner

/-- A segment of the text with returns. -/
def Segment.withReturns (s : Segment) : Segment :=
  { s with content := s.content.withReturns, source := s.source.withReturns }

namespace Scanner
open Text

/-- The scanner at the same place of the text with returns. -/
def withReturns (s : Scanner) : Scanner :=
  { s with
    rest := s.rest.withReturns
    kept := s.held.withReturns.reverse
    consumed := s.spent.withReturns.reverse
    segments := s.segments.map Segment.withReturns }

theorem withReturns_enter (s : Scanner) (mode : Mode) :
    (s.enter mode).withReturns = s.withReturns.enter mode := rfl

theorem withReturns_begin (s : Scanner) : s.begin.withReturns = s.withReturns.begin := rfl

theorem withReturns_skip {s : Scanner} {n n' : Nat} (h : Spans s.rest n n') :
    (s.skip n).withReturns = s.withReturns.skip n' := by
  have hdrop := h.drop
  rw [Spans] at h
  simp [withReturns, skip, h, hdrop, held, spent]

theorem withReturns_keep {s : Scanner} {n n' : Nat} (h : Spans s.rest n n') :
    (s.keep n).withReturns = s.withReturns.keep n' := by
  have hdrop := h.drop
  rw [Spans] at h
  by_cases hnil : s.rest.take n = []
  · have hnil' : s.withReturns.rest.take n' = [] := by
      rw [withReturns, h, hnil, withReturns_nil]
    rw [keep_eq_self hnil, keep_eq_self hnil']
  · have hnil' : s.withReturns.rest.take n' ≠ [] := by
      rwa [withReturns, h, ne_eq, withReturns_eq_nil_iff]
    rw [keep_eq hnil, keep_eq hnil']
    simp [withReturns, skip, h, hdrop, held, spent]

theorem withReturns_flush (s : Scanner) (kind : Kind) :
    (s.flush kind).withReturns = s.withReturns.flush kind := by
  have hheld : s.withReturns.held = s.held.withReturns := by simp [held, withReturns]
  by_cases h : kind ≠ .code ∨ s.held ≠ []
  · have h' : kind ≠ .code ∨ s.withReturns.held ≠ [] := by
      rwa [hheld, ne_eq s.held.withReturns, withReturns_eq_nil_iff]
    rw [flush_eq h, flush_eq h']
    simp [withReturns, pending, held, spent, Segment.withReturns]
  · simp only [not_or, not_not] at h
    obtain ⟨rfl, hnil⟩ := h
    rw [flush_code_of_held_nil hnil, flush_code_of_held_nil (by rw [hheld, hnil, withReturns_nil])]
    rfl

theorem withReturns_finish (s : Scanner) :
    s.withReturns.finish = s.finish.map Segment.withReturns := by
  have hnil : s.withReturns.consumed = [] ↔ s.consumed = [] := by simp [withReturns, spent]
  unfold finish
  by_cases h : s.consumed = []
  · rw [if_pos h, if_pos (hnil.mpr h)]
    simp [withReturns]
  · rw [if_neg h, if_neg (mt hnil.mp h)]
    cases hs : s.segments with
    | nil => simp [withReturns, hs, spent, Segment.withReturns]
    | cons last before => simp [withReturns, hs, spent, Segment.withReturns]

theorem perform_mirrors {s : Scanner} {script script' : List Op}
    (h : Mirrors s.rest script script') :
    s.withReturns.perform script' = (s.perform script).withReturns := by
  generalize ht : s.rest = t at h
  induction h generalizing s with
  | nil => rfl
  | skip hspan _ ih =>
      subst ht
      simp only [perform_cons, apply, ← withReturns_skip hspan]
      exact ih (skip_rest _ _)
  | keep hspan _ ih =>
      subst ht
      simp only [perform_cons, apply, ← withReturns_keep hspan]
      exact ih (keep_rest _ _)
  | begin _ ih =>
      subst ht
      simp only [perform_cons, apply, ← withReturns_begin]
      exact ih (begin_rest _)
  | flush _ ih =>
      subst ht
      simp only [perform_cons, apply, ← withReturns_flush]
      exact ih (flush_rest _ _)
  | enter _ ih =>
      subst ht
      simp only [perform_cons, apply, ← withReturns_enter]
      exact ih (enter_rest _ _)

/-- A line feed in base mode is answered by two steps, over the return and over the line feed. -/
theorem run_withReturns_newline {s : Scanner} {y : Text} (hm : s.mode = .base)
    (hr : s.rest = '\n' :: y) : s.withReturns.run = ((s.keep 1).enter .base).withReturns.run := by
  have hrest : s.withReturns.rest = '\r' :: '\n' :: y.withReturns := by
    rw [withReturns, hr, withReturns_newline]
  have hone : s.withReturns.step = .next ((s.withReturns.keep 1).enter .base) := by
    rw [step_eq, hrest, withReturns, hm]
    rfl
  have htwo : ((s.withReturns.keep 1).enter .base).step =
      .next ((((s.withReturns.keep 1).enter .base).keep 1).enter .base) := by
    rw [step_eq, enter_rest, keep_rest, hrest]
    rfl
  have hspan : Spans s.rest 1 2 := by
    rw [hr]
    rfl
  have hboth : (((s.withReturns.keep 1).enter .base).keep 1).enter .base =
      ((s.keep 1).enter .base).withReturns := by
    rw [withReturns_enter, withReturns_keep hspan, enter_keep, keep_add]
    rfl
  rw [run_of_next hone, run_of_next htwo, hboth]

/-- Failures with the same report. -/
def SameReport (file : Text) (e e' : Fault × Scanner) : Prop :=
  e'.2.report file e'.1 = e.2.report file e.1

theorem answers_withReturns (file : Text) {s : Scanner} (h : '\r' ∉ s.rest) :
    Answers (fun s s' => '\r' ∉ s.rest ∧ s' = s.withReturns) (SameReport file)
      (fun found found' => found' = found.map Segment.withReturns) s.step s.withReturns.run := by
  by_cases hnl : s.mode = .base ∧ s.rest.head? = some '\n'
  · obtain ⟨hm, hhead⟩ := hnl
    obtain ⟨y, hr⟩ := List.head?_eq_some_iff.mp hhead
    have hs : s.step = .next ((s.keep 1).enter .base) := by
      rw [step_eq, hm, hr]
      rfl
    rw [hs, run_withReturns_newline hm hr]
    refine .next ⟨?_, rfl⟩
    rw [enter_rest, keep_rest]
    exact fun hmem => h (List.mem_of_mem_drop hmem)
  · have hplan : Plan.Mirrors s.rest (plan s.mode s.rest)
        (plan s.withReturns.mode s.withReturns.rest) := plan_mirrors h fun hm hh => hnl ⟨hm, hh⟩
    have hs := step_eq s
    have hs' := step_eq s.withReturns
    generalize plan s.mode s.rest = p at hplan hs
    generalize plan s.withReturns.mode s.withReturns.rest = p' at hplan hs'
    cases hplan with
    | go hscript =>
        rw [hs, run_of_next hs', perform_mirrors hscript]
        refine .next ⟨?_, rfl⟩
        rw [perform_rest]
        exact fun hmem => h (List.mem_of_mem_drop hmem)
    | stop =>
        rw [hs, run_of_done hs', ← withReturns_flush, withReturns_finish]
        exact .done rfl
    | fail =>
        rw [hs, run_of_failed hs']
        refine .failed ?_
        simp only [SameReport, report, withReturns, words_withReturns h]

end Scanner

/-- Scanning a text with returns fails in the same way, or finds the same segments with returns. -/
theorem Segment.scan_withReturns_eq (file : Text) {t : Text} (h : '\r' ∉ t) :
    scan file t.withReturns = (scan file t).map (List.map Segment.withReturns) := by
  have hrun : Corresponds (Scanner.SameReport file)
      (fun found found' => found' = found.map Segment.withReturns)
      (Scanner.ofText t).run (Scanner.ofText t.withReturns).run := by
    apply Scanner.run_corresponds (Q := fun s s' => '\r' ∉ s.rest ∧ s' = s.withReturns)
    · rintro s _ ⟨hs, rfl⟩
      exact Scanner.answers_withReturns file hs
    · exact ⟨h, rfl⟩
  have hscan : Corresponds Eq _ (scan file t) (scan file t.withReturns) :=
    scan_corresponds hrun fun _ _ he => he.symm
  generalize scan file t = r at hscan ⊢
  generalize scan file t.withReturns = r' at hscan ⊢
  cases hscan with
  | error he => exact congrArg Except.error he.symm
  | ok hf => exact congrArg Except.ok hf

end Marginalia
