import Marginalia.Proofs.Foresight
import Marginalia.Proofs.Onset
import Marginalia.Proofs.TwoRuns

/-!
# Cuts between segments

Between two segments nothing is pending. From there on the scanner does what a new one does on the
rest of the file, only further down and behind the segments that are finished; and up to there it
does what it does on the text in front of the place alone, since no step looks further than it goes.
Whenever a segment is emitted there is such a place behind it, so that every split of the segments
of a file is found in its run.
-/
namespace Marginalia

namespace Segment

/-- A segment that stands `n` lines further down. -/
def down (n : Nat) (s : Segment) : Segment := { s with line := s.line + n }

/-- A segment that stands `n` lines further up. -/
def up (n : Nat) (s : Segment) : Segment := { s with line := s.line - n }

theorem up_down (n : Nat) (s : Segment) : (s.down n).up n = s := by
  simp [up, down]

end Segment

namespace Scanner
open Segment Marker

/-- The same scanner `n` lines further down, behind earlier segments. -/
def onto (n : Nat) (earlier : List Segment) (s : Scanner) : Scanner :=
  { s with
    line := s.line + n
    start? := s.start?.map (· + n)
    segments := s.segments.map (down n) ++ earlier }

section Onto
variable {n : Nat} {earlier : List Segment} {s : Scanner}

theorem onto_flush (kind : Kind) :
    (s.onto n earlier).flush kind = (s.flush kind).onto n earlier := by
  by_cases h : kind ≠ .code ∨ s.held ≠ []
  · rw [flush_eq h, flush_eq (s := s.onto n earlier) h]
    cases hs : s.start? <;> simp [onto, pending, down, hs, held, spent]
  · simp only [not_or, not_not] at h
    obtain ⟨rfl, hheld⟩ := h
    rw [flush_code_of_held_nil hheld, flush_code_of_held_nil (s := s.onto n earlier) hheld]
    rfl

theorem onto_keep (m : Nat) : (s.onto n earlier).keep m = (s.keep m).onto n earlier := by
  by_cases h : s.rest.take m = []
  · rw [keep_eq_self h, keep_eq_self (s := s.onto n earlier) h]
  · rw [keep_eq h, keep_eq (s := s.onto n earlier) h]
    cases hs : s.start? <;> simp [onto, skip, hs, Nat.add_right_comm]

theorem onto_apply (op : Op) : (s.onto n earlier).apply op = (s.apply op).onto n earlier := by
  cases op with
  | skip m => simp [apply, onto, skip, Nat.add_right_comm]
  | keep m => exact onto_keep m
  | begin => rfl
  | flush kind => exact onto_flush kind
  | enter mode => rfl

theorem onto_perform (script : List Op) :
    (s.onto n earlier).perform script = (s.perform script).onto n earlier := by
  induction script generalizing s with
  | nil => rfl
  | cons op script ih => rw [perform_cons, perform_cons, onto_apply, ih]

/-- Dropped lines at the end go to an earlier segment where there is no other one. -/
theorem onto_finish (he : earlier ≠ []) :
    (s.onto n earlier).finish = earlier.reverse ++ s.finish.map (down n) ∨
      (s.onto n earlier).finish.length = earlier.length ∧ ∀ x ∈ s.finish, x.content = [] := by
  unfold finish
  by_cases hc : s.consumed = []
  · left
    simp [onto, hc]
  · cases hs : s.segments with
    | nil =>
        right
        obtain ⟨last, before, rfl⟩ := List.exists_cons_of_ne_nil he
        simp [onto, hc, hs]
    | cons last before =>
        left
        simp [onto, hc, hs, down]

theorem run_onto (he : earlier ≠ []) (s : Scanner) :
    Corresponds (fun e e' => e' = (e.1, e.2.onto n earlier))
      (fun found found' => found' = earlier.reverse ++ found.map (down n) ∨
        found'.length = earlier.length ∧ ∀ x ∈ found, x.content = [])
      s.run (s.onto n earlier).run := by
  refine run_corresponds (Q := fun s s' => s' = s.onto n earlier) ?_ rfl
  rintro s _ rfl
  refine answers_of_plan_eq (s := s) rfl ?_ ?_ ?_
  · intro script _
    exact onto_perform script
  · intro _
    rw [onto_flush]
    exact onto_finish he
  · intro fault _
    rfl

end Onto

/-- A flush of the code does nothing where no segment has been started. -/
theorem flush_code_eq_self {s : Scanner} (hheld : s.held = []) (hstart : s.start? = none) :
    s.flush .code = s := by
  rw [flush_code_of_held_nil hheld, ← hstart]

/-- Where the next step flushes the code first, the run may stop behind that flush. -/
theorem run_flush_code {r : Scanner} {script : List Op}
    (hp : plan r.mode r.rest = .go (.flush .code :: script)) : r.run = (r.flush .code).run := by
  have hflush : (r.flush .code).flush .code = r.flush .code :=
    flush_code_eq_self (flush_held .code r) (flush_start? r .code)
  have hstep : r.step = .next ((r.flush .code).perform script) :=
    step_next_iff.mpr ⟨_, hp, rfl⟩
  have hstep' : (r.flush .code).step = .next ((r.flush .code).perform script) := by
    refine step_next_iff.mpr ⟨.flush .code :: script, by simpa using hp, ?_⟩
    rw [perform_cons, apply, hflush]
  rw [run_of_next hstep, run_of_next hstep']

/-- A scanner between two segments. It is one that the run comes to, or would come to if it flushed
the code in front of a marker by a step of its own. -/
structure Cut (text : Text) (s : Scanner) : Prop where
  reached : ∃ r, Reaches (ofText text) r ∧ r.mode = .base ∧ s = r.flush .code ∧
    (s = r ∨ ∃ script, plan r.mode r.rest = .go (.flush .code :: script))
  consumed : s.consumed = []

section Cut
variable {text : Text} {s : Scanner}

theorem Cut.run_eq (h : Cut text s) : (ofText text).run = s.run := by
  obtain ⟨r, hr, -, hs, hself | ⟨script, hp⟩⟩ := h.reached
  · rw [hr.run_eq, hself]
  · rw [hr.run_eq, hs, run_flush_code hp]

theorem Cut.whole_eq (h : Cut text s) : reassemble s.segments.reverse ++ s.rest = text := by
  obtain ⟨r, hr, -, rfl, -⟩ := h.reached
  have hwhole : (r.flush .code).whole = text := (whole_flush .code r).trans hr.whole_eq
  simpa [whole, ahead, spent, h.consumed] using hwhole

/-- Between two segments the scanner is a new one, further down and behind the first of them. -/
theorem Cut.eq_onto (h : Cut text s) :
    s = (ofText s.rest).onto (Text.newlines (reassemble s.segments.reverse)) s.segments := by
  obtain ⟨r, hr, hm, hs, -⟩ := h.reached
  have hcount : Counted s := hs ▸ (hr.dated (.ofText text)).counted.apply (.flush .code)
  have hline : s.line = 1 + Text.newlines (reassemble s.segments.reverse) := by
    rw [hcount, passed, spent, h.consumed, List.reverse_nil, List.append_nil]
  have hmode : s.mode = .base := by rw [hs, flush_mode, hm]
  have hkept : s.kept = [] := by
    have hheld : s.held = [] := by rw [hs, flush_held]
    simpa [held] using hheld
  have hstart : s.start? = none := by rw [hs, flush_start?]
  have hconsumed := h.consumed
  obtain ⟨mode, rest, line, kept, start?, consumed, segments⟩ := s
  simp_all [onto, ofText]

/-- The text behind a cut gives the segments behind it. -/
theorem Cut.resume {p q : List Segment} (h : Cut text s) (hs : s.segments = p.reverse)
    (hp : p ≠ []) (hq : q ≠ []) (hrun : (ofText text).run = .ok (p ++ q)) :
    (ofText s.rest).run = .ok (q.map (up (Text.newlines (reassemble p)))) := by
  have hne : s.segments ≠ [] := by simpa [hs] using hp
  have hcorr := run_onto (n := Text.newlines (reassemble s.segments.reverse)) hne (ofText s.rest)
  rw [← h.eq_onto, ← h.run_eq, hrun] at hcorr
  generalize (ofText s.rest).run = r at hcorr
  cases hcorr with
  | ok hfound =>
      rcases hfound with hfound | ⟨hlen, -⟩
      · rw [hs, List.reverse_reverse, List.append_cancel_left_eq] at hfound
        simp [hfound, Function.comp_def, up_down]
      · simp [hs, hq] at hlen

/-- The text in front of a cut gives the segments in front of it. -/
theorem Cut.stop (h : Cut text s)
    (hr : ¬((reassemble s.segments.reverse).getLast? = some '\r' ∧ s.rest = ['\r'])) :
    (ofText (reassemble s.segments.reverse)).run = .ok s.segments.reverse := by
  obtain ⟨r, hreach, hm, hs, -⟩ := h.reached
  have hrest : r.rest = s.rest := by rw [hs, flush_rest]
  have hstop : Reaches ((ofText text).before (reassemble s.segments.reverse ++ []))
      (r.before []) := by
    refine hreach.exchange ?_ h.whole_eq.symm hrest
    intro a mode script ha hsuffix hgo hle
    rw [List.append_nil]
    -- A step between two returns would be one in front of the cut itself.
    refine plan_of_append ha (fun _ hlast => hr ⟨?_, hlast.2⟩) hgo hle
    obtain ⟨front, hfront⟩ := hsuffix
    rw [← hfront, List.getLast?_append, hlast.1]
    rfl
  have hflush : (r.before []).flush .code = s.before [] := by
    have hbefore : (r.before ([] ++ [])).apply (.flush .code) =
        (r.apply (.flush .code)).before (List.drop 0 [] ++ []) :=
      apply_before (y := r.rest) rfl (Nat.le_refl 0)
    rw [hs]
    exact hbefore
  have hdone : (r.before []).step = .done s.segments.reverse := by
    have hplan : plan (r.before []).mode (r.before []).rest = .stop := by
      rw [before_mode, hm, before_rest]
      rfl
    rw [step_eq, hplan, Plan.step, hflush, finish, if_pos (show (s.before []).consumed = [] from
      h.consumed), before_segments]
  rw [List.append_nil] at hstop
  exact hstop.run_eq.trans (run_of_done hdone)

/-- Finished segments, the last one first, with a cut behind each of them. -/
def Divided (text : Text) : List Segment → Prop
  | [] => True
  | last :: before => (∃ s, Cut text s ∧ s.segments = last :: before) ∧ Divided text before

theorem Divided.cut {later p : List Segment} (h : Divided text (later ++ p)) (hp : p ≠ []) :
    ∃ s, Cut text s ∧ s.segments = p := by
  induction later with
  | nil =>
      cases p with
      | nil => exact absurd rfl hp
      | cons last before => exact h.1
  | cons x later ih => exact ih h.2

/-- There is a cut behind the code that a marker flushes. -/
theorem Divided.flush_code {r : Scanner} {script : List Op} (hr : Reaches (ofText text) r)
    (hm : r.mode = .base) (hp : plan r.mode r.rest = .go (.flush .code :: script))
    (h : Divided text r.segments) : Divided text (r.flush .code).segments := by
  by_cases hheld : r.held = []
  · rwa [flush_code_of_held_nil hheld]
  · have hflush := flush_eq (show Kind.code ≠ .code ∨ r.held ≠ [] from .inr hheld)
    have hcut : Cut text (r.flush .code) :=
      ⟨⟨r, hr, hm, rfl, .inr ⟨script, hp⟩⟩, by rw [hflush]⟩
    have hseg : (r.flush .code).segments = r.pending .code :: r.segments := by rw [hflush]
    rw [hseg]
    exact ⟨⟨_, hcut, hseg⟩, h⟩

theorem cut_emit {r : Scanner} {kind : Kind} (hk : kind ≠ .code)
    (hr : Reaches (ofText text) ((r.flush kind).enter .base)) :
    Cut text ((r.flush kind).enter .base) where
  reached := by
    refine ⟨_, hr, rfl, Eq.symm ?_, .inl rfl⟩
    exact flush_code_eq_self (s := (r.flush kind).enter .base) (flush_held kind r)
      (flush_start? r kind)
  consumed := by
    rw [flush_eq (.inl hk)]
    rfl

/-- There is a cut behind a comment or a clear mark. -/
theorem Divided.emit {r : Scanner} {kind : Kind} (hk : kind ≠ .code)
    (hr : Reaches (ofText text) ((r.flush kind).enter .base)) (h : Divided text r.segments) :
    Divided text ((r.flush kind).enter .base).segments := by
  rw [segments_emit hk]
  exact ⟨⟨_, cut_emit hk hr, segments_emit hk r⟩, h⟩

theorem Divided.step {t : Scanner} (hr : Reaches (ofText text) s) (hstep : s.step = .next t)
    (h : Divided text s.segments) : Divided text t.segments := by
  have hreach := hr.concat hstep
  obtain ⟨script, hgo, rfl⟩ := step_next_iff.mp hstep
  cases hm : s.mode with
  | base =>
      have hcode : ∀ {tail}, script = .flush .code :: tail →
          Divided text (s.flush .code).segments := by
        rintro tail rfl
        exact h.flush_code hr hm hgo
      rw [hm] at hgo
      cases plan_base hgo with
      | keep _ _ _ => simpa [apply] using h
      | openBlock _ _ => exact hcode rfl
      | line hline =>
          cases hline with
          | drop _ => exact h
          | clear _ => exact Divided.emit (by decide) hreach (hcode rfl)
          | comment _ =>
              refine Divided.emit (by decide) hreach ?_
              simpa [apply] using hcode rfl
  | code =>
      rw [hm] at hgo
      obtain ⟨n, mode, _, rfl⟩ := plan_code hgo
      simpa [apply] using h
  | block indent =>
      rw [hm] at hgo
      rcases plan_block hgo with rfl | ⟨body, rfl⟩
      · simpa [blockLineScript, apply] using h
      · refine Divided.emit (by decide) hreach ?_
        simpa [apply] using h

theorem Reaches.divided (h : Reaches (ofText text) s) : Divided text s.segments :=
  h.invariant_of_step (P := fun s => Divided text s.segments) trivial
    fun hr hstep hs => hs.step hr hstep

/-- Dropped lines at the end change the last segment only. -/
theorem finish_dropLast (s : Scanner) : s.finish.dropLast = s.segments.tail.reverse := by
  unfold finish
  split
  · cases s.segments <;> simp
  · cases s.segments <;> simp

/-- Between any two segments of a file there is a cut. -/
theorem exists_cut {p q : List Segment} (h : (ofText text).run = .ok (p ++ q)) (hp : p ≠ [])
    (hq : q ≠ []) : ∃ s, Cut text s ∧ s.segments = p.reverse := by
  obtain ⟨t, hreach, hdone⟩ := run_ok_iff.mp h
  obtain ⟨_, _, hfound⟩ := step_done hdone
  have hdivided := hreach.divided
  have htail : (t.flush .code).segments.tail = q.dropLast.reverse ++ p.reverse := by
    rw [← List.reverse_append, ← List.dropLast_append_of_ne_nil hq, hfound, finish_dropLast,
      List.reverse_reverse]
  have hsuffix : q.dropLast.reverse ++ p.reverse <:+ t.segments := by
    rw [← htail, flush_segments]
    split
    · exact List.tail_suffix _
    · exact List.suffix_refl _
  obtain ⟨later, hlater⟩ := hsuffix
  rw [← hlater, ← List.append_assoc] at hdivided
  exact hdivided.cut (by simpa using hp)

end Cut

end Scanner

end Marginalia
