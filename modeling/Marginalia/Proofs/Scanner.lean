import Marginalia.Segment.Scanner
import Marginalia.Proofs.Marker
import Mathlib.Tactic.SplitIfs

/-!
# Steps and runs of the scanner

The scanner keeps its texts with the last character first. The views `spent` and `held` turn them
round, and the operations of the scanner append to these views. A step that goes on is one of seven
moves; each move carries the marker that caused it, so that an invariant of the scanner is proved by
one case for each move. A run that ends is a chain of moves to a scanner whose step ends the run.
-/
namespace Marginalia

/-- Outside block comments. -/
def Mode.Outside (mode : Mode) : Prop := mode = .base ∨ mode = .code

theorem Mode.not_outside_block (indent : Nat) : ¬(Mode.block indent).Outside := by
  rintro (h | h) <;> cases h

namespace Scanner

/-- The text consumed since the last segment. -/
def spent (s : Scanner) : Text := s.consumed.reverse

/-- The part of it that was kept. -/
def held (s : Scanner) : Text := s.kept.reverse

/-- The segment that a flush would emit. -/
def pending (kind : Kind) (s : Scanner) : Segment :=
  { kind, content := s.held, line := (s.start?.getD s.line : Nat), source := s.spent }

@[simp] theorem skip_spent (n : Nat) (s : Scanner) :
    (s.skip n).spent = s.spent ++ s.rest.take n := by
  simp [spent, skip]

@[simp] theorem skip_held (n : Nat) (s : Scanner) : (s.skip n).held = s.held := rfl
@[simp] theorem skip_segments (n : Nat) (s : Scanner) : (s.skip n).segments = s.segments := rfl

@[simp] theorem begin_spent (s : Scanner) : s.begin.spent = s.spent := rfl
@[simp] theorem begin_held (s : Scanner) : s.begin.held = s.held := rfl
@[simp] theorem begin_segments (s : Scanner) : s.begin.segments = s.segments := rfl

@[simp] theorem enter_mode (mode : Mode) (s : Scanner) : (s.enter mode).mode = mode := rfl
@[simp] theorem enter_spent (mode : Mode) (s : Scanner) : (s.enter mode).spent = s.spent := rfl
@[simp] theorem enter_held (mode : Mode) (s : Scanner) : (s.enter mode).held = s.held := rfl
@[simp] theorem enter_segments (mode : Mode) (s : Scanner) :
    (s.enter mode).segments = s.segments := rfl

@[simp] theorem keep_spent (n : Nat) (s : Scanner) :
    (s.keep n).spent = s.spent ++ s.rest.take n := by
  unfold keep
  split
  · next h => simp [h]
  · simp [spent, skip]

@[simp] theorem keep_held (n : Nat) (s : Scanner) :
    (s.keep n).held = s.held ++ s.rest.take n := by
  unfold keep
  split
  · next h => simp [h]
  · simp [held]

@[simp] theorem keep_segments (n : Nat) (s : Scanner) : (s.keep n).segments = s.segments := by
  unfold keep
  split <;> rfl

/-- Nothing is held behind a flush, whether or not it emitted a segment. -/
@[simp] theorem flush_held (kind : Kind) (s : Scanner) : (s.flush kind).held = [] := by
  unfold flush
  split
  · next h => simp [held, h.2]
  · rfl

theorem flush_code_of_held_nil {s : Scanner} (h : s.held = []) :
    s.flush .code = { s with start? := none } := by
  have hk : s.kept = [] := by simpa [held] using h
  simp [flush, hk]

/-- Apart from code of which nothing is held, a flush emits the pending segment. -/
theorem flush_eq {kind : Kind} {s : Scanner} (h : kind ≠ .code ∨ s.held ≠ []) :
    s.flush kind = { s with
      segments := s.pending kind :: s.segments
      kept := []
      consumed := []
      start? := none } := by
  have hne : ¬(kind = .code ∧ s.kept = []) := by
    rintro ⟨hk, hkept⟩
    rcases h with h | h
    · exact h hk
    · exact h (by simp [held, hkept])
  rw [flush, if_neg hne]
  rfl

theorem segments_emit {kind : Kind} (h : kind ≠ .code) (s : Scanner) :
    ((s.flush kind).enter .base).segments = s.pending kind :: s.segments := by
  rw [flush_eq (.inl h)]
  rfl

/-- Moves over blanks that end a line, together with the line end. -/
def skipTrailing (s : Scanner) : Scanner :=
  let trailing := Marker.margin s.rest
  let ending := Marker.lineEnd (s.rest.drop trailing)
  if ending = 0 then s else s.skip (trailing + ending)

@[simp] theorem skipTrailing_held (s : Scanner) : s.skipTrailing.held = s.held := by
  simp only [skipTrailing]
  split <;> rfl

@[simp] theorem skipTrailing_segments (s : Scanner) : s.skipTrailing.segments = s.segments := by
  simp only [skipTrailing]
  split <;> rfl

theorem skipTrailing_spent (s : Scanner) :
    ∃ blanks ending, Blanks blanks ∧ (blanks = [] ∧ ending = [] ∨ IsLineBreak ending) ∧
      s.skipTrailing.spent = s.spent ++ (blanks ++ ending) := by
  rcases Marker.take_lineEnd (s.rest.drop (Marker.margin s.rest)) with h | h
  · refine ⟨[], [], fun _ hc => absurd hc List.not_mem_nil, .inl ⟨rfl, rfl⟩, ?_⟩
    simp [skipTrailing, h]
  · refine ⟨_, _, Marker.blanks_take_margin s.rest, .inr h, ?_⟩
    have hne : Marker.lineEnd (s.rest.drop (Marker.margin s.rest)) ≠ 0 := by
      intro h0
      rw [h0] at h
      rcases h with h | h <;> cases h
    simp [skipTrailing, hne, List.take_add]

/-- A step that goes on, by what it does with the text at the cursor. -/
inductive Move (s : Scanner) : Scanner → Prop
  /-- A literal, an embedded comment, a line end or a character is kept as code. -/
  | keep {n : Nat} {mode : Mode} : s.mode.Outside → mode.Outside → Move s ((s.keep n).enter mode)
  /-- A license tag or an ignore directive is dropped with its line. -/
  | drop : s.mode = .base → Marker.opensLine s.rest →
      Marker.isLicenseTag s.rest ∨ Marker.directive? s.rest = some ("ignore" : Text) →
      Move s ((s.skip (Marker.wholeLine s.rest)).enter .base)
  | clear : s.mode = .base → Marker.opensLine s.rest →
      Marker.directive? s.rest = some ("clear" : Text) →
      Move s ((((s.flush .code).begin.skip (Marker.wholeLine s.rest)).flush .clear).enter .base)
  | lineComment {t u : Scanner} : s.mode = .base → Marker.opensLine s.rest →
      Marker.isLicenseTag s.rest = false → Marker.directive? s.rest = none →
      t = (s.flush .code).begin.skip (Marker.lineCommentLead s.rest) →
      u = t.keep (Text.dropEnding "\r" (Text.firstLine t.rest)).length →
      Move s (((u.skip (Marker.lineEnd u.rest)).flush .lineComment).enter .base)
  | openBlock : s.mode = .base → Marker.opensBlock s.rest →
      Move s (((s.flush .code).begin.skip (Marker.margin s.rest + 2)).enter
        (.block (Marker.margin s.rest + blockIndentGap)))
  | blockLine {indent : Nat} {t : Scanner} : s.mode = .block indent → s.rest ≠ [] →
      t = s.skip (Marker.marginUpTo indent s.rest) →
      Text.cut? "*/" (Text.firstLine t.rest) = none →
      Move s ((t.keep (Marker.wholeLine t.rest)).enter (.block indent))
  | closeBlock {indent : Nat} {t u : Scanner} {body behind : Text} : s.mode = .block indent →
      t = s.skip (Marker.marginUpTo indent s.rest) →
      Text.cut? "*/" (Text.firstLine t.rest) = some (body, behind) →
      u = (t.keep body.length).skip 2 →
      Move s ((u.skipTrailing.flush .blockComment).enter .base)

theorem stepLineComment_move {s t : Scanner} (hm : s.mode = .base)
    (ho : Marker.opensLine s.rest) (h : s.stepLineComment = .next t) : Move s t := by
  unfold stepLineComment at h
  split at h
  · next hl =>
    cases h
    exact .drop hm ho (.inl hl)
  · next hl =>
    split at h
    · next flag hf =>
      split at h
      · next hi =>
        cases h
        exact .drop hm ho (.inr (hi ▸ hf))
      · split at h
        · next hc =>
          cases h
          simpa using Move.clear hm ho (hc ▸ hf)
        · cases h
    · next hd =>
      cases h
      exact .lineComment hm ho (by simpa using hl) hd rfl rfl

theorem stepBase_move {s t : Scanner} (hm : s.mode = .base) (h : s.stepBase = .next t) :
    Move s t := by
  unfold stepBase at h
  split at h
  · next ho =>
    cases h
    exact .openBlock hm ho
  · split at h
    · next ho => exact stepLineComment_move hm ho h
    · cases h
      refine .keep (.inl hm) ?_
      split
      · exact .inl rfl
      · exact .inr rfl

theorem stepCode_move {s t : Scanner} (hm : s.mode.Outside) (h : s.stepCode = .next t) :
    Move s t := by
  unfold stepCode at h
  split at h
  · split at h
    · cases h
    · cases h
      exact .keep hm (.inr rfl)
  · cases h
    exact .keep hm (.inl rfl)
  · cases h
    exact .keep hm (.inl rfl)
  · cases h
    exact .keep hm (.inl rfl)
  · cases h
    exact .keep hm (.inr rfl)

theorem stepBlock_move {indent : Nat} {s t : Scanner} (hm : s.mode = .block indent)
    (h : s.stepBlock indent = .next t) : Move s t := by
  unfold stepBlock at h
  split at h
  · cases h
  · next hr =>
    simp only at h
    split at h
    · next hcut =>
      cases h
      exact .closeBlock hm rfl hcut rfl
    · next hcut =>
      cases h
      exact .blockLine hm (by simp [hr]) rfl hcut

theorem stepBlock_ne_done {indent : Nat} {s : Scanner} {segments : List Segment} :
    s.stepBlock indent ≠ .done segments := by
  unfold stepBlock
  split
  · exact Step.noConfusion
  · simp only
    split <;> exact Step.noConfusion

theorem stepBase_ne_done {s : Scanner} {segments : List Segment} :
    s.stepBase ≠ .done segments := by
  unfold stepBase stepLineComment
  split_ifs <;> try exact Step.noConfusion
  split
  · split_ifs <;> exact Step.noConfusion
  · exact Step.noConfusion

theorem stepCode_ne_done {s : Scanner} {segments : List Segment} :
    s.stepCode ≠ .done segments := by
  unfold stepCode
  split
  · split <;> exact Step.noConfusion
  all_goals exact Step.noConfusion

theorem outside_of_ne_block {mode : Mode} (h : ∀ indent, mode ≠ .block indent) :
    mode.Outside := by
  cases mode with
  | base => exact .inl rfl
  | code => exact .inr rfl
  | block indent => exact absurd rfl (h indent)

theorem step_move {s t : Scanner} (h : s.step = .next t) : Move s t := by
  unfold step at h
  split at h
  · next hm => exact stepBlock_move hm h
  · next hm =>
    have ho : s.mode.Outside := outside_of_ne_block hm
    split at h
    · cases h
    · split at h
      · cases h
        exact .keep ho (.inr rfl)
      · split at h
        · next hb => exact stepBase_move hb h
        · exact stepCode_move ho h

/-- The run is over only outside block comments and at the end of the file. -/
theorem step_done {s : Scanner} {segments : List Segment} (h : s.step = .done segments) :
    s.mode.Outside ∧ s.rest = [] ∧ segments = (s.flush .code).finish := by
  unfold step at h
  split at h
  · exact absurd h stepBlock_ne_done
  · next hm =>
    split at h
    · next hr =>
      cases h
      exact ⟨outside_of_ne_block hm, hr, rfl⟩
    · split at h
      · cases h
      · split at h
        · exact absurd h stepBase_ne_done
        · exact absurd h stepCode_ne_done

/-- The scanner comes from one place to another in some number of steps. -/
inductive Reaches : Scanner → Scanner → Prop
  | refl (s : Scanner) : Reaches s s
  | step {s t u : Scanner} : s.step = .next t → Reaches t u → Reaches s u

/-- What every move preserves holds wherever the scanner comes. -/
theorem Reaches.invariant {P : Scanner → Prop} (hP : ∀ {s t}, Move s t → P s → P t)
    {s t : Scanner} (h : Reaches s t) (hs : P s) : P t := by
  induction h with
  | refl s => exact hs
  | step hstep _ ih => exact ih (hP (step_move hstep) hs)

theorem run_ok_iff {s : Scanner} {segments : List Segment} :
    s.run = .ok segments ↔ ∃ t, Reaches s t ∧ t.step = .done segments := by
  constructor
  · intro h
    fun_induction run s with
    | case1 s t hstep ih =>
        obtain ⟨u, hu, hd⟩ := ih h
        exact ⟨u, .step hstep hu, hd⟩
    | case2 s found hstep =>
        cases h
        exact ⟨s, .refl s, hstep⟩
    | case3 s fault place hstep => cases h
  · rintro ⟨t, hr, hd⟩
    induction hr with
    | refl s =>
        rw [run]
        split <;> simp_all
    | step hstep _ ih =>
        rw [run]
        split <;> simp_all

end Scanner

end Marginalia
