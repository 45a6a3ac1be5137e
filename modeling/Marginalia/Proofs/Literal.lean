import Marginalia.Proofs.Exchange
import Marginalia.Proofs.TwoRuns

/-!
# What a string literal holds does not matter

A literal without quotes and backslashes inside may hold any other such text with as many line
feeds. Up to the literal both runs are the same, since its own quotes are a fence. The literal
itself is one step. From there on the scanners stand at the same place and differ in what they hold,
until the code segment with the literal is emitted and differs in its content alone.
-/
namespace Marginalia

namespace Marker

/-- Neither a quote nor a backslash. -/
def Plain (t : Text) : Prop := '"' ∉ t ∧ '\'' ∉ t ∧ '\\' ∉ t
deriving Decidable

/-- A text between two quotes. -/
def quoted (q : Char) (body : Text) : Text := q :: (body ++ [q])

section Literal
variable {q : Char} {body body' v : Text}

theorem Plain.quote_notMem (h : Plain body) (hq : IsQuote q) : q ∉ body := by
  rcases hq with rfl | rfl
  · exact h.1
  · exact h.2.1

theorem IsQuote.ne_backslash (hq : IsQuote q) : q ≠ '\\' := by
  rcases hq with rfl | rfl <;> decide

/-- No character of the literal protects the quote behind it. -/
theorem Plain.getLastD_ne (h : Plain body) (hq : IsQuote q) : body.getLastD q ≠ '\\' := by
  intro heq
  rw [List.getLastD_eq_getLast?] at heq
  cases hl : body.getLast? with
  | none => exact hq.ne_backslash (by rwa [hl] at heq)
  | some c =>
      rw [hl] at heq
      exact h.2.2 (heq ▸ List.mem_of_getLast? hl)

theorem closingQuote_body (hq : IsQuote q) (hb : Plain body) :
    closingQuote q q (body ++ q :: v) = some (body.length + 1) := by
  rw [closingQuote_append_of_notMem (hb.quote_notMem hq), closingQuote,
    if_pos ⟨rfl, hb.getLastD_ne hq⟩, Option.map_some, Nat.add_comm]

theorem quoted_append (q : Char) (body v : Text) : quoted q body ++ v = q :: (body ++ q :: v) := by
  simp [quoted]

theorem literal?_quoted (hq : IsQuote q) (hb : Plain body) :
    literal? (quoted q body ++ v) = some (quoted q body).length := by
  rw [quoted_append, literal?_cons hq, closingQuote_body hq hb]
  simp [quoted]

/-- The quotes of a literal close every literal of their own kind, and the text between them closes
none of the other kind. -/
theorem fence_quoted (hq : IsQuote q) (hb : Plain body) (hb' : Plain body') (v : Text) :
    Fence q (body ++ q :: v) (body' ++ q :: v) := by
  refine ⟨.inr hq, ?_⟩
  intro r before hr hopen
  rw [closingQuote] at hopen ⊢
  split at hopen
  · cases hopen
  · next hc =>
    rw [if_neg hc, Option.map_eq_none_iff] at *
    by_cases hqr : q = r
    · subst hqr
      rw [closingQuote_body hq hb] at hopen
      cases hopen
    · have hskip : ∀ before, closingQuote r before (q :: v) = (closingQuote r q v).map (· + 1) :=
        fun before => if_neg fun hc => hqr hc.1
      rw [closingQuote_append_of_notMem (hb.quote_notMem hr), hskip] at hopen
      rw [closingQuote_append_of_notMem (hb'.quote_notMem hr), hskip]
      simpa using hopen

end Literal

end Marker

/-- Two streams of segments that differ, behind the earlier ones, in the content of one code
segment: it has the one literal here and the other one there. -/
def Segment.DifferAt (lit lit' front : Text) (earlier found found' : List Segment) : Prop :=
  ∃ back line later,
    found.map bare = earlier.map bare ++
      { kind := .code, content := front ++ lit ++ back, line } :: later ∧
    found'.map bare = earlier.map bare ++
      { kind := .code, content := front ++ lit' ++ back, line } :: later

theorem Segment.DifferAt.concat {lit lit' front : Text} {earlier found found' : List Segment}
    {x x' : Segment} (h : DifferAt lit lit' front earlier found found') (hx : x.bare = x'.bare) :
    DifferAt lit lit' front earlier (found ++ [x]) (found' ++ [x']) := by
  obtain ⟨back, line, later, hf, hf'⟩ := h
  refine ⟨back, line, later ++ [x.bare], ?_, ?_⟩
  · rw [List.map_append, hf, List.append_assoc]
    rfl
  · rw [List.map_append, hf', List.append_assoc, hx]
    rfl

namespace Scanner
open Marker Segment

/-- At the same place of the same text, with the same start of the pending segment. -/
structure Abreast (s s' : Scanner) : Prop where
  mode : s'.mode = s.mode
  rest : s'.rest = s.rest
  line : s'.line = s.line
  start? : s'.start? = s.start?

theorem Abreast.apply {s s' : Scanner} (h : Abreast s s') (op : Op) :
    Abreast (s.apply op) (s'.apply op) := by
  cases op with
  | skip n =>
      exact ⟨h.mode, by simp [Scanner.apply, h.rest], by simp [Scanner.apply, h.rest, h.line],
        h.start?⟩
  | keep n =>
      exact ⟨by simp [Scanner.apply, h.mode], by simp [Scanner.apply, h.rest],
        by simp [Scanner.apply, h.rest, h.line],
        by simp [Scanner.apply, keep_start?, h.rest, h.start?, h.line]⟩
  | begin => exact ⟨h.mode, h.rest, h.line, congrArg some h.line⟩
  | flush kind =>
      exact ⟨by simp [Scanner.apply, h.mode], by simp [Scanner.apply, h.rest],
        by simp [Scanner.apply, h.line], by simp [Scanner.apply]⟩
  | enter mode => exact ⟨rfl, h.rest, h.line, h.start?⟩

theorem Abreast.report_eq {s s' : Scanner} (h : Abreast s s') (file : Text) (fault : Fault) :
    s'.report file fault = s.report file fault := by
  rw [report, report, h.line, h.rest]

/-- Both scanners hold the same code around two literals. -/
structure Holding (lit lit' front : Text) (earlier : List Segment) (s s' : Scanner) : Prop
    extends Abreast s s' where
  outside : s.mode.Outside
  segments : s.segments = earlier
  segments' : s'.segments = earlier
  held : ∃ back, s.held = front ++ lit ++ back ∧ s'.held = front ++ lit' ++ back

/-- Both scanners have emitted the code around the two literals. -/
structure Emitted (lit lit' front : Text) (earlier : List Segment) (s s' : Scanner) : Prop
    extends Abreast s s' where
  held : s'.held = s.held
  differ : DifferAt lit lit' front earlier.reverse s.segments.reverse s'.segments.reverse

section Differ
variable {lit lit' front : Text} {earlier : List Segment} {s s' : Scanner}

theorem Emitted.apply (h : Emitted lit lit' front earlier s s') (op : Op) :
    Emitted lit lit' front earlier (s.apply op) (s'.apply op) := by
  refine ⟨h.toAbreast.apply op, ?_, ?_⟩
  · cases op <;> simp [Scanner.apply, h.held, h.rest]
  · cases op with
    | flush kind =>
        simp only [Scanner.apply, flush_segments, h.held]
        split
        · exact h.differ
        · rw [List.reverse_cons, List.reverse_cons]
          exact h.differ.concat (by simp [bare, pending, h.held, h.start?, h.line])
    | skip n => exact h.differ
    | keep n => simpa [Scanner.apply] using h.differ
    | begin => exact h.differ
    | enter mode => exact h.differ

theorem Emitted.perform (h : Emitted lit lit' front earlier s s') (script : List Op) :
    Emitted lit lit' front earlier (s.perform script) (s'.perform script) :=
  perform_related (fun op h => h.apply op) h script

theorem Holding.flush (h : Holding lit lit' front earlier s s') (hl : lit ≠ []) (hl' : lit' ≠ []) :
    Emitted lit lit' front earlier (s.flush .code) (s'.flush .code) := by
  obtain ⟨back, hheld, hheld'⟩ := h.held
  have hne : s.held ≠ [] := by simp [hheld, hl]
  have hne' : s'.held ≠ [] := by simp [hheld', hl']
  refine ⟨h.toAbreast.apply (.flush .code), by simp, back, (s.start?.getD s.line : Nat), [], ?_, ?_⟩
  · rw [flush_eq (.inr hne)]
    simp [pending, bare, hheld, h.segments]
  · rw [flush_eq (.inr hne')]
    simp [pending, bare, hheld', h.segments', h.start?, h.line]

/-- The code around the literals is held or emitted. -/
def Differing (lit lit' front : Text) (earlier : List Segment) (s s' : Scanner) : Prop :=
  Holding lit lit' front earlier s s' ∨ Emitted lit lit' front earlier s s'

theorem Differing.abreast (h : Differing lit lit' front earlier s s') : Abreast s s' :=
  h.elim (·.toAbreast) (·.toAbreast)

theorem Holding.keep (h : Holding lit lit' front earlier s s') (n : Nat) {mode : Mode}
    (hm : mode.Outside) : Holding lit lit' front earlier ((s.keep n).enter mode)
      ((s'.keep n).enter mode) := by
  obtain ⟨back, hheld, hheld'⟩ := h.held
  refine ⟨(h.toAbreast.apply (.keep n)).apply (.enter mode), hm, ?_, ?_,
    back ++ s.rest.take n, ?_, ?_⟩
  · simpa using h.segments
  · simpa using h.segments'
  · simp [hheld]
  · simp [hheld', h.rest]

/-- Outside block comments the pending code is prolonged, left alone, or emitted first of all. -/
theorem Holding.perform (h : Holding lit lit' front earlier s s') (hl : lit ≠ []) (hl' : lit' ≠ [])
    {script : List Op} (hgo : plan s.mode s.rest = .go script) :
    Differing lit lit' front earlier (s.perform script) (s'.perform script) := by
  have hflush : ∀ more, Differing lit lit' front earlier (s.perform (.flush .code :: more))
      (s'.perform (.flush .code :: more)) := fun more => .inr ((h.flush hl hl').perform more)
  rcases h.outside with hm | hm
  · rw [hm] at hgo
    cases plan_base hgo with
    | keep _ hmode _ => exact .inl (h.keep _ hmode)
    | openBlock _ _ => exact hflush _
    | line hline =>
        cases hline with
        | drop _ =>
            have habreast := (h.toAbreast.apply (.skip (wholeLine s.rest))).apply (.enter .base)
            exact .inl ⟨habreast, .inl rfl, h.segments, h.segments', h.held⟩
        | clear _ => exact hflush _
        | comment _ => exact hflush _
  · rw [hm] at hgo
    obtain ⟨n, mode, hmode, rfl⟩ := plan_code hgo
    exact .inl (h.keep n hmode)

theorem Emitted.finish (h : Emitted lit lit' front earlier s s') :
    DifferAt lit lit' front earlier.reverse s.finish s'.finish := by
  obtain ⟨back, line, later, hf, hf'⟩ := h.differ
  have hne : s.segments ≠ [] := by
    intro hnil
    simp [hnil] at hf
  have hne' : s'.segments ≠ [] := by
    intro hnil
    simp [hnil] at hf'
  refine ⟨back, line, later, ?_, ?_⟩
  · rw [finish_bare (.inl hne), ← List.map_reverse, hf]
  · rw [finish_bare (.inl hne'), ← List.map_reverse, hf']

/-- Faults at the same place. -/
def SamePlace (e e' : Fault × Scanner) : Prop :=
  e.1 = e'.1 ∧ Abreast e.2 e'.2

theorem Differing.answers (hl : lit ≠ []) (hl' : lit' ≠ [])
    (h : Differing lit lit' front earlier s s') :
    Answers (Differing lit lit' front earlier) SamePlace
      (DifferAt lit lit' front earlier.reverse) s.step s'.run := by
  have hplan : plan s'.mode s'.rest = plan s.mode s.rest := by
    rw [h.abreast.mode, h.abreast.rest]
  apply answers_of_plan_eq hplan
  · intro script hgo
    rcases h with h | h
    · exact h.perform hl hl' hgo
    · exact .inr (h.perform script)
  · intro _
    rcases h with h | h
    · exact (h.flush hl hl').finish
    · exact (h.apply (.flush .code)).finish
  · intro fault _
    exact ⟨rfl, h.abreast⟩

end Differ

section Literal
variable {q : Char} {body body' u v : Text} {s : Scanner}

/-- Up to the literal the runs are the same. -/
theorem reaches_quoted (hq : IsQuote q) (hb : Plain body) (hb' : Plain body')
    (hr : Reaches (ofText (u ++ (quoted q body ++ v))) s) (hs : s.rest = quoted q body ++ v) :
    Reaches (ofText (u ++ (quoted q body' ++ v))) (s.before (quoted q body' ++ v)) := by
  apply hr.exchange _ rfl hs
  intro a mode script _ _ hgo hle
  rw [quoted_append] at hgo ⊢
  exact plan_local (fence_quoted hq hb hb' v) hgo (.inl hle)

/-- The literal is one step. -/
theorem step_quoted (hq : IsQuote q) (hb : Plain body) (hm : s.mode.Outside)
    (hs : s.rest = quoted q body ++ v) :
    s.step = .next ((s.keep (quoted q body).length).enter .code) := by
  rw [step_next_iff]
  refine ⟨[.keep (quoted q body).length, .enter .code], ?_, rfl⟩
  have hne : s.rest ≠ [] := by simp [hs, quoted]
  have hlit : literal? s.rest = some (quoted q body).length := by rw [hs, literal?_quoted hq hb]
  rcases hm with hm | hm
  all_goals
    rw [hm]
    simp only [plan, planOutside_of_ne_nil hne, hlit]

theorem holding_quoted (hn : Text.newlines body' = Text.newlines body)
    (hs : s.rest = quoted q body ++ v) :
    Holding (quoted q body) (quoted q body') s.held s.segments
      ((s.keep (quoted q body).length).enter .code)
      (((s.before (quoted q body' ++ v)).keep (quoted q body').length).enter .code) := by
  have hnewlines : Text.newlines (quoted q body') = Text.newlines (quoted q body) := by
    simp only [Text.newlines] at hn
    simp [Text.newlines, quoted, List.count_cons, hn]
  refine ⟨⟨rfl, ?_, ?_, ?_⟩, .inr rfl, ?_, ?_, [], ?_, ?_⟩
  · simp [hs]
  · simp [hs, hnewlines]
  · simp [keep_start?, hs, quoted]
  · simp
  · simp
  · simp [hs]
  · simp

end Literal

end Scanner

namespace Segment
open Marker Scanner

/-- A literal may be exchanged for another one with as many line feeds. -/
theorem scan_quoted (file : Text) {u body body' v : Text} {q : Char} {s : Scanner} (hq : IsQuote q)
    (hb : Plain body) (hb' : Plain body') (hn : Text.newlines body' = Text.newlines body)
    (hr : Reaches (ofText (u ++ (quoted q body ++ v))) s) (hs : s.rest = quoted q body ++ v)
    (hm : s.mode.Outside) :
    Corresponds Eq (DifferAt (quoted q body) (quoted q body') s.held s.segments.reverse)
      (scan file (u ++ (quoted q body ++ v))) (scan file (u ++ (quoted q body' ++ v))) := by
  have hne : ∀ b, quoted q b ≠ [] := fun b => List.cons_ne_nil _ _
  have hrun := hr.run_eq.trans (run_of_next (step_quoted hq hb hm hs))
  have hrun' := (reaches_quoted hq hb hb' hr hs).run_eq.trans
    (run_of_next (step_quoted hq hb' (s := s.before _) hm rfl))
  have hcorr := run_corresponds (Differing.answers (hne body) (hne body'))
    (.inl (holding_quoted hn hs))
  rw [← hrun, ← hrun'] at hcorr
  apply scan_corresponds hcorr
  rintro ⟨fault, t⟩ ⟨_, t'⟩ ⟨rfl, h⟩
  exact (h.report_eq file fault).symm

/-- Comment markers, a directive and a line feed inside a literal. -/
theorem scan_quoted_markers :
    ∃ s : Scanner, Reaches (ofText ("// a\nb = " ++ (quoted '"' "/*\n//+no+" ++ ";\n// c"))) s ∧
      s.held = "b = " ∧
      s.segments.reverse.map bare = [{ kind := .lineComment, content := "a", line := 1 }] ∧
      Corresponds Eq
        (DifferAt (quoted '"' "/*\n//+no+") (quoted '"' "\n") s.held s.segments.reverse)
        (scan "a.sol" ("// a\nb = " ++ (quoted '"' "/*\n//+no+" ++ ";\n// c")))
        (scan "a.sol" ("// a\nb = " ++ (quoted '"' "\n" ++ ";\n// c"))) := by
  have hreach : ∃ s : Scanner,
      Reaches (ofText ("// a\nb = " ++ (quoted '"' "/*\n//+no+" ++ ";\n// c"))) s ∧
      s.rest = quoted '"' "/*\n//+no+" ++ ";\n// c" ∧ s.mode.Outside ∧ s.held = "b = " ∧
      s.segments.reverse.map bare = [{ kind := .lineComment, content := "a", line := 1 }] :=
    ⟨_, .step rfl (.step rfl (.step rfl (.step rfl (.step rfl (.refl _))))), rfl, .inr rfl, rfl,
      rfl⟩
  obtain ⟨s, hr, hs, hm, hheld, hseg⟩ := hreach
  exact ⟨s, hr, hheld, hseg, scan_quoted _ (.inl rfl) (by decide) (by decide) (by decide) hr hs hm⟩

end Segment

end Marginalia
