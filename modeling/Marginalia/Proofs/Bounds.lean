import Marginalia.Proofs.Exchange

/-!
# Steps stay within the text

The scanner is taken a second time, with every cut of the text guarded: whoever asks for more
characters than there are is refused. Each search and each move of a step turns out to be within its
bounds, so the guarded step is never refused and is the step itself. A place in the text says where
the cursor stands and where the pending segment started; a step that goes on leads to a later place,
and a run is therefore over after at most one step for each character and one more.
-/
namespace Marginalia

/-- The text behind a number of characters. Refused if there are fewer. -/
def Text.behind? (n : Nat) (t : Text) : Option Text :=
  if n ≤ t.length then some (t.drop n) else none

/-- The outcome of a step that ends a run. -/
def Step.outcome? : Step → Option (Except (Fault × Scanner) (List Segment))
  | .next _ => none
  | .done segments => some (.ok segments)
  | .failed fault s => some (.error (fault, s))

namespace Scanner
open Marker

section Guarded
variable (s : Scanner)

def skip? (n : Nat) : Option Scanner := if n ≤ s.rest.length then some (s.skip n) else none

def keep? (n : Nat) : Option Scanner := if n ≤ s.rest.length then some (s.keep n) else none

/-- Keeps the first line, and then its end. -/
def keepLine? : Option Scanner := do
  let t ← s.keep? (lineLength s.rest)
  t.keep? (lineEnd t.rest)

def stepLineComment? : Option Step :=
  if isLicenseTag s.rest then do
    return .next ((← s.skip? (wholeLine s.rest)).enter .base)
  else
    match directive? s.rest with
    | some flag =>
      if flag = ("ignore" : Text) then do
        return .next ((← s.skip? (wholeLine s.rest)).enter .base)
      else if flag = ("clear" : Text) then do
        let t ← (s.flush .code).begin.skip? (wholeLine s.rest)
        return .next ((t.flush .clear).enter .base)
      else return .failed (.unknownDirective flag) s
    | none => do
      let t ← (s.flush .code).begin.skip? (lineCommentLead s.rest)
      let u ← t.keep? (Text.dropEnding "\r" (Text.firstLine t.rest)).length
      let v ← u.skip? (lineEnd u.rest)
      return .next ((v.flush .lineComment).enter .base)

def stepBase? : Option Step :=
  if opensBlock s.rest then do
    let t ← (s.flush .code).begin.skip? (margin s.rest + 2)
    return .next (t.enter (.block (margin s.rest + blockIndentGap)))
  else if opensLine s.rest then s.stepLineComment?
  else do
    return .next ((← s.keep? 1).enter (if s.rest.head?.any isSpace then .base else .code))

def stepCode? : Option Step :=
  if Text.opens "/*" s.rest then do
    let behind ← s.rest.behind? 2
    match Text.cut? "*/" behind with
    | none => return .failed .unterminatedBlock s
    | some (body, _) => return .next ((← s.keep? (body.length + 4)).enter .code)
  else if Text.opens "//" s.rest then do return .next ((← s.keepLine?).enter .base)
  else if lineEnd s.rest = 0 then do return .next ((← s.keep? 1).enter .code)
  else do return .next ((← s.keep? (lineEnd s.rest)).enter .base)

/-- Moves over blanks that end a line. The line end is looked for behind the blanks. -/
def skipTrailing? : Option Scanner := do
  let after ← s.rest.behind? (margin s.rest)
  if lineEnd after = 0 then return s
  else
    let t ← s.skip? (margin s.rest)
    t.skip? (lineEnd t.rest)

def stepBlock? (indent : Nat) : Option Step :=
  match s.rest with
  | [] => return .failed .unterminatedBlock s
  | _ :: _ => do
    let t ← s.skip? (marginUpTo indent s.rest)
    match Text.cut? "*/" (Text.firstLine t.rest) with
    | some (body, _) =>
      let u ← t.keep? body.length
      let v ← (← u.skip? 2).skipTrailing?
      return .next ((v.flush .blockComment).enter .base)
    | none => return .next ((← t.keepLine?).enter (.block indent))

/-- One step of the scanner, refused if any of its cuts goes over the end of the text. -/
def step? : Option Step :=
  match s.mode with
  | .block indent => s.stepBlock? indent
  | mode =>
    match s.rest with
    | [] => return .done (s.flush .code).finish
    | _ :: _ =>
      match literal? s.rest with
      | some n => do return .next ((← s.keep? n).enter .code)
      | none => if mode = .base then s.stepBase? else s.stepCode?

end Guarded

section Granted
variable {s : Scanner} {n : Nat}

theorem skip?_eq (h : n ≤ s.rest.length) : s.skip? n = some (s.skip n) := if_pos h

theorem keep?_eq (h : n ≤ s.rest.length) : s.keep? n = some (s.keep n) := if_pos h

theorem skip_add (s : Scanner) (m n : Nat) : (s.skip m).skip n = s.skip (m + n) := by
  simp [skip, List.take_add, List.drop_drop, Text.newlines, Nat.add_assoc]

theorem keepLine?_eq (s : Scanner) : s.keepLine? = some (s.keep (wholeLine s.rest)) := by
  have hend := lineEnd_le (s.keep (lineLength s.rest)).rest
  unfold keepLine?
  rw [keep?_eq (lineLength_le s.rest)]
  simp only [Option.bind_eq_bind, Option.bind_some]
  rw [keep?_eq hend, keep_rest, keep_add]
  rfl

theorem skipTrailing?_eq (s : Scanner) : s.skipTrailing? = some s.skipTrailing := by
  have hmargin := margin_le_length s.rest
  have hend := lineEnd_le (s.skip (margin s.rest)).rest
  unfold skipTrailing? skipTrailing Text.behind?
  rw [if_pos hmargin]
  simp only [Option.bind_eq_bind, Option.bind_some]
  split
  · rfl
  · rw [skip?_eq hmargin]
    simp only [Option.bind_some]
    rw [skip?_eq hend, skip_rest, skip_add]

theorem stepLineComment?_eq (ho : opensLine s.rest) :
    s.stepLineComment? = some s.stepLineComment := by
  have hwhole := wholeLine_le s.rest
  have hlead := lineCommentLead_le ho
  unfold stepLineComment? stepLineComment
  split_ifs
  · rw [skip?_eq hwhole]
    rfl
  · cases directive? s.rest with
    | some flag =>
        simp only
        split_ifs
        · rw [skip?_eq hwhole]
          rfl
        · rw [skip?_eq (by simpa using hwhole)]
          simp
        · rfl
    | none =>
        simp only
        rw [skip?_eq (by simpa using hlead)]
        generalize (s.flush .code).begin.skip (lineCommentLead s.rest) = t
        have hbody := (Text.dropEnding_isPrefix "\r" (Text.firstLine t.rest)).length_le.trans
          (lineLength_le t.rest)
        simp only [Option.bind_eq_bind, Option.bind_some, keep?_eq hbody]
        rw [skip?_eq (lineEnd_le _)]
        rfl

theorem stepBase?_eq (h : s.rest ≠ []) : s.stepBase? = some s.stepBase := by
  unfold stepBase? stepBase
  split_ifs with hblock hline
  · rw [skip?_eq (by simpa using margin_add_two_le rfl hblock)]
    rfl
  · exact stepLineComment?_eq hline
  all_goals
    rw [keep?_eq (List.length_pos_iff.mpr h)]
    rfl

theorem stepCode?_eq (h : s.rest ≠ []) : s.stepCode? = some s.stepCode := by
  rw [step_eq_planCode]
  unfold stepCode? planCode
  split_ifs with hblock hline hend
  · obtain ⟨more, hmore⟩ := Text.opens_iff.mp hblock
    have htwo : 2 ≤ s.rest.length := by
      rw [hmore]
      simp
    unfold Text.behind?
    rw [if_pos htwo]
    cases hcut : Text.cut? "*/" (s.rest.drop 2) with
    | none =>
        have hnone : blockComment? s.rest = none := by rw [blockComment?, hcut]; rfl
        simp only [Option.bind_eq_bind, Option.bind_some, hcut, hnone]
        rfl
    | some p =>
        have hsome : blockComment? s.rest = some (p.1.length + 4) := by
          rw [blockComment?, hcut]
          rfl
        simp only [Option.bind_eq_bind, Option.bind_some, hcut, hsome,
          keep?_eq (blockComment?_le hblock hsome)]
        rfl
  · rw [keepLine?_eq]
    rfl
  · rw [keep?_eq (List.length_pos_iff.mpr h)]
    rfl
  · rw [keep?_eq (lineEnd_le s.rest)]
    rfl

theorem stepBlock?_eq (s : Scanner) (indent : Nat) :
    s.stepBlock? indent = some (s.stepBlock indent) := by
  have hskip : s.skip? (marginUpTo indent s.rest) = some (s.skip (marginUpTo indent s.rest)) :=
    skip?_eq ((Nat.min_le_right _ _).trans (margin_le_length s.rest))
  unfold stepBlock? stepBlock
  cases hrest : s.rest with
  | nil => rfl
  | cons c cs =>
      rw [hrest] at hskip
      simp only [hskip, Option.bind_eq_bind, Option.bind_some]
      generalize s.skip (marginUpTo indent (c :: cs)) = t
      cases hcut : Text.cut? "*/" (Text.firstLine t.rest) with
      | none =>
          simp only [keepLine?_eq, Option.bind_some]
          rfl
      | some p =>
          obtain ⟨body, behind⟩ := p
          obtain ⟨-, more, hmore⟩ := Text.cut?_firstLine hcut
          have hlen := congrArg List.length hmore
          have htwo : ("*/" : Text).length = 2 := rfl
          simp only [List.length_append, htwo] at hlen
          have hbody : body.length ≤ t.rest.length := by omega
          have hclose : 2 ≤ (t.keep body.length).rest.length := by
            rw [keep_rest, List.length_drop]
            omega
          simp only [keep?_eq hbody, Option.bind_some, skip?_eq hclose, skipTrailing?_eq]
          rfl

/-- No cut of a step goes over the end of the text. -/
theorem step?_eq (s : Scanner) : s.step? = some s.step := by
  have houtside : ∀ {guarded : Option Step} {step : Step},
      (s.rest ≠ [] → guarded = some step) →
      (match s.rest with
        | [] => some (.done (s.flush .code).finish)
        | _ :: _ =>
          match literal? s.rest with
          | some n => do return .next ((← s.keep? n).enter .code)
          | none => guarded) =
      some (match s.rest with
        | [] => .done (s.flush .code).finish
        | _ :: _ =>
          match literal? s.rest with
          | some n => .next ((s.keep n).enter .code)
          | none => step) := by
    intro guarded step hstep
    cases hrest : s.rest with
    | nil => rfl
    | cons c cs =>
        cases hl : literal? (c :: cs) with
        | none => exact hstep (by simp [hrest])
        | some n =>
            have hle : n ≤ s.rest.length := literal?_le (hrest ▸ hl)
            simp only [keep?_eq hle]
            rfl
  unfold step? step
  cases s.mode with
  | base => exact houtside stepBase?_eq
  | code => exact houtside stepCode?_eq
  | block indent => exact stepBlock?_eq s indent

end Granted

/-- Where a scanner stands in a text: its cursor is at `pos`, and what it has consumed since the last
segment begins at `start`. -/
structure Stands (text : Text) (start pos : Nat) (s : Scanner) : Prop where
  start_le : start ≤ pos
  pos_le : pos ≤ text.length
  spent_eq : s.spent = (text.take pos).drop start
  rest_eq : s.rest = text.drop pos

section Places
variable {text : Text} {start pos : Nat} {s t : Scanner}

theorem stands_ofText (text : Text) : Stands text 0 0 (ofText text) :=
  ⟨Nat.le_refl 0, Nat.zero_le _, rfl, rfl⟩

theorem Stands.length_rest (h : Stands text start pos s) :
    s.rest.length = text.length - pos := by
  rw [h.rest_eq, List.length_drop]

theorem Stands.spent_append (h : Stands text start pos s) (n : Nat) :
    s.spent ++ s.rest.take n = (text.take (pos + n)).drop start := by
  have hstart : start ≤ (text.take pos).length := by
    have hpos := h.pos_le
    have hle := h.start_le
    rw [List.length_take]
    omega
  rw [List.take_add, List.drop_append_of_le_length hstart, h.spent_eq, h.rest_eq]

theorem Stands.advance (h : Stands text start pos s) {n : Nat} (hn : n ≤ s.rest.length)
    (hspent : t.spent = s.spent ++ s.rest.take n) (hrest : t.rest = s.rest.drop n) :
    Stands text start (pos + n) t := by
  have hpos := h.pos_le
  have hstart := h.start_le
  rw [h.length_rest] at hn
  constructor
  · omega
  · omega
  · rw [hspent, h.spent_append]
  · rw [hrest, h.rest_eq, List.drop_drop]

/-- Behind a flush the pending segment begins at the cursor, or where it began before if there was
no segment. -/
theorem Stands.flush (h : Stands text start pos s) (kind : Kind) :
    ∃ start', start ≤ start' ∧ Stands text start' pos (s.flush kind) := by
  by_cases hk : kind ≠ .code ∨ s.held ≠ []
  · rw [flush_eq hk]
    refine ⟨pos, h.start_le, Nat.le_refl pos, h.pos_le, ?_, h.rest_eq⟩
    have hnil : (text.take pos).drop pos = [] := List.drop_eq_nil_of_le (List.length_take_le _ _)
    rw [hnil]
    rfl
  · simp only [not_or, not_not] at hk
    rw [hk.1, flush_code_of_held_nil hk.2]
    exact ⟨start, Nat.le_refl start, h.start_le, h.pos_le, h.spent_eq, h.rest_eq⟩

theorem Stands.apply (h : Stands text start pos s) {op : Op} (hle : op.extent ≤ s.rest.length) :
    ∃ start', start ≤ start' ∧ Stands text start' (pos + op.extent) (s.apply op) := by
  cases op with
  | skip n => exact ⟨start, Nat.le_refl start, h.advance hle (skip_spent n s) (skip_rest n s)⟩
  | keep n => exact ⟨start, Nat.le_refl start, h.advance hle (keep_spent n s) (keep_rest n s)⟩
  | begin => exact ⟨start, Nat.le_refl start, h.start_le, h.pos_le, h.spent_eq, h.rest_eq⟩
  | flush kind => exact h.flush kind
  | enter mode => exact ⟨start, Nat.le_refl start, h.start_le, h.pos_le, h.spent_eq, h.rest_eq⟩

theorem Stands.perform (h : Stands text start pos s) {script : List Op}
    (hle : extent script ≤ s.rest.length) :
    ∃ start', start ≤ start' ∧ Stands text start' (pos + extent script) (s.perform script) := by
  induction script generalizing s start pos with
  | nil => exact ⟨start, Nat.le_refl start, h⟩
  | cons op script ih =>
      rw [extent_cons] at hle
      have hfront : op.extent ≤ s.rest.length := by omega
      obtain ⟨mid, hmid, hop⟩ := h.apply hfront
      have hbehind : extent script ≤ (s.apply op).rest.length := by
        rw [apply_rest, List.length_drop]
        omega
      obtain ⟨last, hlast, hscript⟩ := ih hop hbehind
      rw [extent_cons, ← Nat.add_assoc]
      exact ⟨last, hmid.trans hlast, hscript⟩

theorem Stands.step (h : Stands text start pos s) (hstep : s.step = .next t) :
    ∃ start' pos', start ≤ start' ∧ pos < pos' ∧ Stands text start' pos' t := by
  have hlt := step_next_lt hstep
  obtain ⟨script, hplan, rfl⟩ := step_next_iff.mp hstep
  obtain ⟨start', hstart, hstands⟩ := h.perform (plan_extent_le hplan)
  rw [h.length_rest, hstands.length_rest] at hlt
  exact ⟨start', pos + extent script, hstart, by omega, hstands⟩

theorem Reaches.stands (h : Reaches s t) (hs : Stands text start pos s) :
    ∃ start' pos', Stands text start' pos' t := by
  induction h generalizing start pos with
  | refl s => exact ⟨start, pos, hs⟩
  | step hstep _ ih =>
      obtain ⟨_, _, -, -, ht⟩ := hs.step hstep
      exact ih ht

/-- At the end of a run the whole text is consumed. -/
theorem Stands.done (h : Stands text start pos s) {segments : List Segment}
    (hdone : s.step = .done segments) : pos = text.length := by
  have hnil := (step_done hdone).2.1
  have hlength := h.length_rest
  have hpos := h.pos_le
  rw [hnil, List.length_nil] at hlength
  omega

end Places

/-- A number of steps that go on. -/
inductive Takes : Nat → Scanner → Scanner → Prop
  | zero (s : Scanner) : Takes 0 s s
  | succ {n : Nat} {s t u : Scanner} : s.step = .next t → Takes n t u → Takes (n + 1) s u

theorem Takes.add_length_le {n : Nat} {s t : Scanner} (h : Takes n s t) :
    n + t.rest.length ≤ s.rest.length := by
  induction h with
  | zero s => omega
  | succ hstep _ ih =>
      have hlt := step_next_lt hstep
      omega

/-- Every run comes to a step that ends it. -/
theorem exists_takes (s : Scanner) : ∃ n t, Takes n s t ∧ t.step.outcome? = some s.run := by
  fun_induction run s with
  | case1 s t hstep ih =>
      obtain ⟨n, u, htakes, hout⟩ := ih
      exact ⟨n + 1, u, .succ hstep htakes, hout⟩
  | case2 s segments hstep => exact ⟨0, s, .zero s, by rw [hstep]; rfl⟩
  | case3 s fault place hstep => exact ⟨0, s, .zero s, by rw [hstep]; rfl⟩

/-- Wherever a scanner stands in a text, its step keeps all its cuts within the text and fails, or
ends the run with the text consumed, or moves the cursor forward within the text, with the pending
segment behind it. A run takes at most one such step for each character, and one that ends it. -/
theorem run_bounded (text : Text) :
    (∀ s, Reaches (ofText text) s → ∃ start pos, Stands text start pos s) ∧
    (∀ s start pos, Stands text start pos s →
      s.step? = some s.step ∧
      match s.step with
      | .next t => ∃ start' pos', start ≤ start' ∧ pos < pos' ∧ Stands text start' pos' t
      | .done _ => pos = text.length
      | .failed _ _ => True) ∧
    ∃ n t, Takes n (ofText text) t ∧ n ≤ text.length ∧
      t.step.outcome? = some (ofText text).run := by
  refine ⟨fun s h => h.stands (stands_ofText text), ?_, ?_⟩
  · intro s start pos h
    refine ⟨step?_eq s, ?_⟩
    split
    · next t hstep => exact h.step hstep
    · next segments hdone => exact h.done hdone
    · trivial
  · obtain ⟨n, t, htakes, hout⟩ := exists_takes (ofText text)
    have hle : n + t.rest.length ≤ text.length := htakes.add_length_le
    exact ⟨n, t, htakes, by omega, hout⟩

end Scanner

end Marginalia
