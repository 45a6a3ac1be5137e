import Marginalia.Proofs.Script

/-!
# Two runs side by side

Two runs are compared step by step. If each step of the first scanner is answered by some steps of
the second one, so that they are related again, then both runs fail or both succeed, and what they
end with is related. Two scanners with the same mode and the same rest have the same plan; there it
is enough that every operation keeps the relation.
-/
namespace Marginalia

/-- Two outcomes that are both failures related by `E`, or both results related by `R`. -/
inductive Corresponds {ε α : Type} (E : ε → ε → Prop) (R : α → α → Prop) :
    Except ε α → Except ε α → Prop
  | error {e e' : ε} : E e e' → Corresponds E R (.error e) (.error e')
  | ok {a a' : α} : R a a' → Corresponds E R (.ok a) (.ok a')

/-- What is related by two outcomes may depend on the first of them. -/
theorem Corresponds.imp {ε α : Type} {E E' : ε → ε → Prop} {R R' : α → α → Prop}
    {x y : Except ε α} (h : Corresponds E R x y)
    (hE : ∀ e e', x = .error e → E e e' → E' e e')
    (hR : ∀ a a', x = .ok a → R a a' → R' a a') : Corresponds E' R' x y := by
  cases h with
  | error he => exact .error (hE _ _ rfl he)
  | ok hr => exact .ok (hR _ _ rfl hr)

/-- What is seen of a segment by later stages: all but its source. -/
def Segment.bare (s : Segment) : Segment := { s with source := [] }

theorem Segment.bare_eq_bare {s s' : Segment} :
    s.bare = s'.bare ↔ s.kind = s'.kind ∧ s.content = s'.content ∧ s.line = s'.line := by
  simp [bare]

namespace Scanner

/-- How the run of a second scanner answers one step of a first one. -/
inductive Answers (Q : Scanner → Scanner → Prop) (E : Fault × Scanner → Fault × Scanner → Prop)
    (R : List Segment → List Segment → Prop) :
    Step → Except (Fault × Scanner) (List Segment) → Prop
  | next {t t' : Scanner} : Q t t' → Answers Q E R (.next t) t'.run
  | done {found found' : List Segment} : R found found' → Answers Q E R (.done found) (.ok found')
  | failed {fault : Fault} {t : Scanner} {e : Fault × Scanner} : E (fault, t) e →
      Answers Q E R (.failed fault t) (.error e)

section Simulation
variable {Q : Scanner → Scanner → Prop} {E : Fault × Scanner → Fault × Scanner → Prop}
variable {R : List Segment → List Segment → Prop} {s s' : Scanner}

/-- If every step is answered, the runs correspond. -/
theorem run_corresponds (hstep : ∀ {s s'}, Q s s' → Answers Q E R s.step s'.run) (h : Q s s') :
    Corresponds E R s.run s'.run := by
  fun_induction run s generalizing s' with
  | case1 s t hs ih =>
      have ha := hstep h
      rw [hs] at ha
      generalize s'.run = r at ha
      cases ha with
      | next hq => exact ih hq
  | case2 s found hs =>
      have ha := hstep h
      rw [hs] at ha
      generalize s'.run = r at ha
      cases ha with
      | done hr => exact .ok hr
  | case3 s fault place hs =>
      have ha := hstep h
      rw [hs] at ha
      generalize s'.run = r at ha
      cases ha with
      | failed he => exact .error he

/-- Two scanners with the same plan answer each other by performing it. -/
theorem answers_of_plan_eq (hplan : plan s'.mode s'.rest = plan s.mode s.rest)
    (hgo : ∀ script, plan s.mode s.rest = .go script → Q (s.perform script) (s'.perform script))
    (hstop : plan s.mode s.rest = .stop → R (s.flush .code).finish (s'.flush .code).finish)
    (hfail : ∀ fault, plan s.mode s.rest = .fail fault → E (fault, s) (fault, s')) :
    Answers Q E R s.step s'.run := by
  have hs := step_eq s
  have hs' := step_eq s'
  rw [hplan] at hs'
  cases hp : plan s.mode s.rest with
  | go script =>
      rw [hp] at hs hs'
      rw [hs, run_of_next hs']
      exact .next (hgo script hp)
  | stop =>
      rw [hp] at hs hs'
      rw [hs, run_of_done hs']
      exact .done (hstop hp)
  | fail fault =>
      rw [hp] at hs hs'
      rw [hs, run_of_failed hs']
      exact .failed (hfail fault hp)

/-- A relation that every operation keeps is kept by scripts. -/
theorem perform_related (hop : ∀ {s s'} (op : Op), Q s s' → Q (s.apply op) (s'.apply op))
    (h : Q s s') (script : List Op) : Q (s.perform script) (s'.perform script) := by
  induction script generalizing s s' with
  | nil => exact h
  | cons op script ih => exact ih (hop op h)

end Simulation

/-- Behind the last segment only sources change. -/
theorem finish_bare {s : Scanner} (h : s.segments ≠ [] ∨ s.consumed = []) :
    s.finish.map Segment.bare = (s.segments.map Segment.bare).reverse := by
  unfold finish
  split
  · rw [List.map_reverse]
  · next hc =>
    cases hs : s.segments with
    | nil => exact absurd hs (h.resolve_right hc)
    | cons last before => simp [Segment.bare]

end Scanner

theorem Segment.scan_corresponds {E : Fault × Scanner → Fault × Scanner → Prop}
    {E' : ParseError → ParseError → Prop} {R : List Segment → List Segment → Prop}
    {file t t' : Text} (h : Corresponds E R (Scanner.ofText t).run (Scanner.ofText t').run)
    (hE : ∀ e e', E e e' → E' (e.2.report file e.1) (e'.2.report file e'.1)) :
    Corresponds E' R (scan file t) (scan file t') := by
  unfold scan
  generalize (Scanner.ofText t).run = r at h
  generalize (Scanner.ofText t').run = r' at h
  cases h with
  | error he => exact .error (hE _ _ he)
  | ok hr => exact .ok hr

end Marginalia
