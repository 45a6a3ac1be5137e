import Marginalia.Proofs.Scanner

/-!
# A step is a script that mode and rest choose

What the scanner does next depends on its mode and on the text at its cursor, and on nothing it has
seen before. `plan` makes that choice; the script it answers with is a list of the elementary
operations of the scanner. Each operation says what it does to each field, so that a property of
the scanner is followed through a step by following it through a script.
-/
namespace Marginalia

namespace Scanner

/-- An elementary operation of the scanner. -/
inductive Op where
  | skip (n : Nat)
  | keep (n : Nat)
  | begin
  | flush (kind : Kind)
  | enter (mode : Mode)
deriving DecidableEq, Repr

/-- The scanner behind one operation. -/
def apply (s : Scanner) : Op → Scanner
  | .skip n => s.skip n
  | .keep n => s.keep n
  | .begin => s.begin
  | .flush kind => s.flush kind
  | .enter mode => s.enter mode

/-- The scanner behind a script. -/
def perform (s : Scanner) (script : List Op) : Scanner := script.foldl apply s

/-- The number of characters that an operation moves over. -/
def Op.extent : Op → Nat
  | .skip n => n
  | .keep n => n
  | .begin => 0
  | .flush _ => 0
  | .enter _ => 0

/-- The number of characters that a script moves over. -/
def extent : List Op → Nat
  | [] => 0
  | op :: script => op.extent + extent script

/-- What a step is going to be. -/
inductive Plan where
  | go (script : List Op)
  | stop
  | fail (fault : Fault)
deriving DecidableEq, Repr

/-- The step of a plan. -/
def Plan.step (s : Scanner) : Plan → Step
  | .go script => .next (s.perform script)
  | .stop => .done (s.flush .code).finish
  | .fail fault => .failed fault s

/-- The length of the blanks that end a line, together with the line end. -/
def trailing (t : Text) : Nat :=
  let ending := Marker.lineEnd (t.drop (Marker.margin t))
  if ending = 0 then 0 else Marker.margin t + ending

def dropScript (t : Text) : List Op := [.skip (Marker.wholeLine t), .enter .base]

def clearScript (t : Text) : List Op :=
  [.flush .code, .begin, .skip (Marker.wholeLine t), .flush .clear, .enter .base]

/-- The words of a line comment behind its lead, and the line end behind the words. -/
def commentScript (t : Text) : List Op :=
  let behind := t.drop (Marker.lineCommentLead t)
  let body := (Text.dropEnding "\r" (Text.firstLine behind)).length
  [.flush .code, .begin, .skip (Marker.lineCommentLead t), .keep body,
    .skip (Marker.lineEnd (behind.drop body)), .flush .lineComment, .enter .base]

def openScript (t : Text) : List Op :=
  [.flush .code, .begin, .skip (Marker.margin t + 2),
    .enter (.block (Marker.margin t + blockIndentGap))]

def closeScript (indent : Nat) (t body : Text) : List Op :=
  let behind := ((t.drop (Marker.marginUpTo indent t)).drop body.length).drop 2
  [.skip (Marker.marginUpTo indent t), .keep body.length, .skip 2, .skip (trailing behind),
    .flush .blockComment, .enter .base]

def blockLineScript (indent : Nat) (t : Text) : List Op :=
  [.skip (Marker.marginUpTo indent t),
    .keep (Marker.wholeLine (t.drop (Marker.marginUpTo indent t))), .enter (.block indent)]

def planLineComment (t : Text) : Plan :=
  if Marker.isLicenseTag t then .go (dropScript t)
  else
    match Marker.directive? t with
    | some flag =>
      if flag = ("ignore" : Text) then .go (dropScript t)
      else if flag = ("clear" : Text) then .go (clearScript t)
      else .fail (.unknownDirective flag)
    | none => .go (commentScript t)

def planBase (t : Text) : Plan :=
  if Marker.opensBlock t then .go (openScript t)
  else if Marker.opensLine t then planLineComment t
  else .go [.keep 1, .enter (if t.head?.any isSpace then .base else .code)]

def planCode (t : Text) : Plan :=
  if Text.opens "/*" t then
    match Marker.blockComment? t with
    | none => .fail .unterminatedBlock
    | some n => .go [.keep n, .enter .code]
  else if Text.opens "//" t then .go [.keep (Marker.wholeLine t), .enter .base]
  else if Marker.lineEnd t = 0 then .go [.keep 1, .enter .code]
  else .go [.keep (Marker.lineEnd t), .enter .base]

def planBlock (indent : Nat) (t : Text) : Plan :=
  match t with
  | [] => .fail .unterminatedBlock
  | _ :: _ =>
    match Text.cut? "*/" (Text.firstLine (t.drop (Marker.marginUpTo indent t))) with
    | some (body, _) => .go (closeScript indent t body)
    | none => .go (blockLineScript indent t)

theorem planBlock_of_ne_nil {t : Text} (h : t ≠ []) (indent : Nat) :
    planBlock indent t =
      match Text.cut? "*/" (Text.firstLine (t.drop (Marker.marginUpTo indent t))) with
      | some (body, _) => .go (closeScript indent t body)
      | none => .go (blockLineScript indent t) := by
  cases t with
  | nil => exact absurd rfl h
  | cons c cs => rfl

/-- Outside block comments a string literal comes before everything else. -/
def planOutside (t : Text) (otherwise : Plan) : Plan :=
  match t with
  | [] => .stop
  | _ :: _ =>
    match Marker.literal? t with
    | some n => .go [.keep n, .enter .code]
    | none => otherwise

theorem planOutside_of_ne_nil {t : Text} (h : t ≠ []) (otherwise : Plan) :
    planOutside t otherwise =
      match Marker.literal? t with
      | some n => .go [.keep n, .enter .code]
      | none => otherwise := by
  cases t with
  | nil => exact absurd rfl h
  | cons c cs => rfl

/-- The choice of a step. -/
def plan : Mode → Text → Plan
  | .base, t => planOutside t (planBase t)
  | .code, t => planOutside t (planCode t)
  | .block indent, t => planBlock indent t

@[simp] theorem skip_zero (s : Scanner) : s.skip 0 = s := by
  simp [skip, Text.newlines]

theorem step_eq_planLineComment (s : Scanner) :
    s.stepLineComment = (planLineComment s.rest).step s := by
  unfold stepLineComment planLineComment
  split_ifs
  · rfl
  · cases Marker.directive? s.rest with
    | none => simp [Plan.step, perform, commentScript, apply]
    | some flag =>
        simp only
        split_ifs
        · rfl
        · simp [Plan.step, perform, clearScript, apply]
        · rfl

theorem step_eq_planBase (s : Scanner) : s.stepBase = (planBase s.rest).step s := by
  unfold stepBase planBase
  split
  · rfl
  · split
    · exact step_eq_planLineComment s
    · rfl

theorem step_eq_planCode (s : Scanner) : s.stepCode = (planCode s.rest).step s := by
  unfold stepCode planCode
  split
  · next h =>
    have ho : Text.opens "/*" s.rest := by rw [h]; rfl
    rw [if_pos ho]
    cases Marker.blockComment? s.rest <;> rfl
  · next h => rw [h]; rfl
  · next h => rw [h]; rfl
  · next h => rw [h]; rfl
  · next h₁ h₂ h₃ h₄ =>
    have hblock : ¬Text.opens "/*" s.rest := by
      rw [Text.opens_iff]
      rintro ⟨behind, hb⟩
      exact h₁ behind hb
    have hline : ¬Text.opens "//" s.rest := by
      rw [Text.opens_iff]
      rintro ⟨behind, hb⟩
      exact h₂ behind hb
    have hend : Marker.lineEnd s.rest = 0 := by
      unfold Marker.lineEnd
      split
      · next hr => exact (h₃ _ hr).elim
      · next hr => exact (h₄ _ hr).elim
      · rfl
    rw [if_neg hblock, if_neg hline, if_pos hend]
    rfl

theorem skipTrailing_eq (s : Scanner) : s.skipTrailing = s.skip (trailing s.rest) := by
  simp only [skipTrailing, trailing]
  split
  · exact (skip_zero s).symm
  · rfl

theorem stepBlock_of_ne_nil {s : Scanner} (h : s.rest ≠ []) (indent : Nat) :
    s.stepBlock indent =
      match Text.cut? "*/" (Text.firstLine (s.skip (Marker.marginUpTo indent s.rest)).rest) with
      | some (body, _) =>
        .next (((((s.skip (Marker.marginUpTo indent s.rest)).keep body.length).skip
          2).skipTrailing.flush .blockComment).enter .base)
      | none =>
        .next (((s.skip (Marker.marginUpTo indent s.rest)).keep
          (Marker.wholeLine (s.skip (Marker.marginUpTo indent s.rest)).rest)).enter
            (.block indent)) := by
  unfold stepBlock
  split
  · next hnil => exact absurd hnil h
  · rfl

theorem step_eq_planBlock (indent : Nat) (s : Scanner) :
    s.stepBlock indent = (planBlock indent s.rest).step s := by
  by_cases hr : s.rest = []
  · have hstep : s.stepBlock indent = .failed .unterminatedBlock s := by
      unfold stepBlock
      split
      · rfl
      · next hcons => rw [hr] at hcons; cases hcons
    rw [hstep, hr]
    rfl
  · rw [stepBlock_of_ne_nil hr, planBlock_of_ne_nil hr, skip_rest]
    cases Text.cut? "*/"
        (Text.firstLine (s.rest.drop (Marker.marginUpTo indent s.rest))) with
    | none => rfl
    | some p =>
        have htrail := skipTrailing_eq
          (((s.skip (Marker.marginUpTo indent s.rest)).keep p.1.length).skip 2)
        rw [skip_rest, keep_rest, skip_rest] at htrail
        simp only [htrail]
        rfl

theorem step_eq_planOutside {s : Scanner} {p : Plan} {r : Step} (h : r = p.step s) :
    (match s.rest with
      | [] => .done (s.flush .code).finish
      | _ :: _ =>
        match Marker.literal? s.rest with
        | some n => .next ((s.keep n).enter .code)
        | none => r) = (planOutside s.rest p).step s := by
  unfold planOutside
  cases s.rest with
  | nil => rfl
  | cons c cs =>
      simp only
      cases Marker.literal? (c :: cs) with
      | none => exact h
      | some n => rfl

/-- A step is the plan that mode and rest choose. -/
theorem step_eq (s : Scanner) : s.step = (plan s.mode s.rest).step s := by
  unfold step
  cases s.mode with
  | base => exact step_eq_planOutside (step_eq_planBase s)
  | code => exact step_eq_planOutside (step_eq_planCode s)
  | block indent => exact step_eq_planBlock indent s

theorem step_next_iff {s t : Scanner} :
    s.step = .next t ↔ ∃ script, plan s.mode s.rest = .go script ∧ s.perform script = t := by
  rw [step_eq]
  cases plan s.mode s.rest <;> simp [Plan.step]

section Fields
variable (s : Scanner) (n : Nat) (kind : Kind) (mode : Mode)

@[simp] theorem skip_mode : (s.skip n).mode = s.mode := rfl
@[simp] theorem skip_start? : (s.skip n).start? = s.start? := rfl
@[simp] theorem skip_line : (s.skip n).line = s.line + Text.newlines (s.rest.take n) := rfl
@[simp] theorem begin_mode : s.begin.mode = s.mode := rfl
@[simp] theorem begin_line : s.begin.line = s.line := rfl
@[simp] theorem begin_start? : s.begin.start? = some s.line := rfl
@[simp] theorem enter_line : (s.enter mode).line = s.line := rfl
@[simp] theorem enter_start? : (s.enter mode).start? = s.start? := rfl

theorem keep_eq_self {s : Scanner} {n : Nat} (h : s.rest.take n = []) : s.keep n = s := by
  unfold keep
  split
  · rfl
  · next hne => exact absurd h hne

theorem keep_eq {s : Scanner} {n : Nat} (h : s.rest.take n ≠ []) :
    s.keep n = { s.skip n with
      kept := (s.rest.take n).reverse ++ s.kept
      start? := some (s.start?.getD s.line) } := by
  unfold keep
  split
  · next hnil => exact absurd hnil h
  · rfl

@[simp] theorem keep_mode : (s.keep n).mode = s.mode := by
  unfold keep
  split <;> rfl

@[simp] theorem keep_line : (s.keep n).line = s.line + Text.newlines (s.rest.take n) := by
  unfold keep
  split
  · next h => simp [h, Text.newlines]
  · rfl

theorem keep_start? : (s.keep n).start? =
    if s.rest.take n = [] then s.start? else some (s.start?.getD s.line) := by
  unfold keep
  split
  · next h => rw [if_pos h]
  · next h => rw [if_neg h]

theorem enter_keep : (s.enter mode).keep n = (s.keep n).enter mode := by
  unfold keep
  simp only [enter_rest]
  split <;> rfl

/-- Characters may be kept one after the other or all at once. -/
theorem keep_add (m n : Nat) : (s.keep m).keep n = s.keep (m + n) := by
  by_cases hm : s.rest.take m = []
  · have hzero : m = 0 ∨ s.rest = [] := List.take_eq_nil_iff.mp hm
    rw [keep_eq_self hm]
    rcases hzero with rfl | hrest
    · rw [Nat.zero_add]
    · rw [keep_eq_self (by simp [hrest]), keep_eq_self (by simp [hrest])]
  · have hmn : s.rest.take (m + n) ≠ [] := by simp_all
    by_cases hn : (s.rest.drop m).take n = []
    · have htake : s.rest.take (m + n) = s.rest.take m := by
        rw [List.take_add, hn, List.append_nil]
      have hdrop : s.rest.drop (m + n) = s.rest.drop m := by
        rw [← List.drop_drop, ← List.nil_append ((s.rest.drop m).drop n), ← hn,
          List.take_append_drop]
      rw [keep_eq_self (by simpa using hn), keep_eq hm, keep_eq hmn, skip, skip, htake, hdrop]
    · rw [keep_eq (by simpa using hn), keep_eq hm, keep_eq hmn]
      simp [skip, List.take_add, List.drop_drop, Text.newlines, Nat.add_assoc]

@[simp] theorem flush_mode : (s.flush kind).mode = s.mode := by
  unfold flush
  split <;> rfl

@[simp] theorem flush_line : (s.flush kind).line = s.line := by
  unfold flush
  split <;> rfl

@[simp] theorem flush_start? : (s.flush kind).start? = none := by
  unfold flush
  split <;> rfl

theorem flush_segments : (s.flush kind).segments =
    if kind = .code ∧ s.held = [] then s.segments else s.pending kind :: s.segments := by
  by_cases h : kind ≠ .code ∨ s.held ≠ []
  · rw [flush_eq h, if_neg fun hk => h.elim (· hk.1) (· hk.2)]
  · simp only [not_or, not_not] at h
    rw [if_pos h, h.1, flush_code_of_held_nil h.2]

@[simp] theorem perform_nil : s.perform [] = s := rfl

@[simp] theorem perform_cons (op : Op) (script : List Op) :
    s.perform (op :: script) = (s.apply op).perform script := rfl

theorem perform_append (a b : List Op) : s.perform (a ++ b) = (s.perform a).perform b :=
  List.foldl_append

end Fields

theorem extent_cons (op : Op) (ops : List Op) : extent (op :: ops) = op.extent + extent ops := rfl

theorem extent_append (a b : List Op) : extent (a ++ b) = extent a + extent b := by
  induction a with
  | nil => exact (Nat.zero_add _).symm
  | cons op a ih => rw [List.cons_append, extent_cons, extent_cons, ih, Nat.add_assoc]

theorem apply_rest (s : Scanner) (op : Op) : (s.apply op).rest = s.rest.drop op.extent := by
  cases op <;> simp [apply, Op.extent]

theorem perform_rest (s : Scanner) (script : List Op) :
    (s.perform script).rest = s.rest.drop (extent script) := by
  induction script generalizing s with
  | nil => rfl
  | cons op script ih =>
      rw [perform_cons, ih, apply_rest, List.drop_drop, extent_cons]

theorem run_of_next {s t : Scanner} (h : s.step = .next t) : s.run = t.run := by
  rw [run]
  split <;> simp_all

theorem run_of_done {s : Scanner} {segments : List Segment} (h : s.step = .done segments) :
    s.run = .ok segments := by
  rw [run]
  split <;> simp_all

theorem run_of_failed {s t : Scanner} {fault : Fault} (h : s.step = .failed fault t) :
    s.run = .error (fault, t) := by
  rw [run]
  split <;> simp_all

theorem Reaches.concat {s t u : Scanner} (h : Reaches s t) (hstep : t.step = .next u) :
    Reaches s u := by
  induction h with
  | refl s => exact .step hstep (.refl u)
  | step hfirst _ ih => exact .step hfirst (ih hstep)

/-- What holds at the start of a text and is kept by the steps of its run holds along the run. -/
theorem Reaches.invariant_of_step {text : Text} {P : Scanner → Prop} {t : Scanner}
    (h : Reaches (ofText text) t) (hstart : P (ofText text))
    (hstep : ∀ {s t}, Reaches (ofText text) s → s.step = .next t → P s → P t) : P t := by
  have hall : ∀ {s t}, Reaches s t → Reaches (ofText text) s → P s → P t := by
    intro s t h
    induction h with
    | refl s => exact fun _ hs => hs
    | step hnext _ ih => exact fun hr hs => ih (hr.concat hnext) (hstep hr hnext hs)
  exact hall h (.refl _) hstart

theorem Reaches.run_eq {s t : Scanner} (h : Reaches s t) : s.run = t.run := by
  induction h with
  | refl s => rfl
  | step hstep _ ih => exact (run_of_next hstep).trans ih

end Scanner

end Marginalia
