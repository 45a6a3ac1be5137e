import Marginalia.Proofs.Exchange
import Marginalia.Proofs.Onset
import Marginalia.Proofs.Revision
import Marginalia.Proofs.TwoRuns

/-!
# Dropped lines are invisible

A dropped line may be put in front of any line at which the scanner is not in the middle of
something. Up to there both runs are the same, since a dropped line without quotes closes no
literal. Then the line is dropped, and from there on the second scanner does what the first one
does, one line further down. A segment that begins in front of the place keeps its line, and every
other one comes down by one.
-/
namespace Marginalia

namespace Text

/-- A text that is empty or ends in a line feed. -/
def WholeLines (t : Text) : Prop := t = [] ∨ t.getLast? = some '\n'

theorem WholeLines.newlines_lt {a b : Text} (h : WholeLines (a ++ b)) (hb : b ≠ []) :
    newlines a < newlines (a ++ b) := by
  have hlast : b.getLast? = some '\n' := by
    rcases h with h | h
    · exact absurd (List.append_eq_nil_iff.mp h).2 hb
    · rwa [List.getLast?_append_of_ne_nil _ hb] at h
  have hpos : 0 < newlines b := List.count_pos_iff.mpr (List.mem_of_getLast? hlast)
  rw [newlines_append]
  omega

/-- Line feeds tell on which side of a line a place is. -/
theorem WholeLines.newlines_take_lt_iff {u : Text} (h : WholeLines u) (v : Text) (n : Nat) :
    newlines ((u ++ v).take n) < newlines u ↔ n < u.length := by
  constructor
  · intro hlt
    by_contra hle
    rw [List.take_append, List.take_of_length_le (Nat.le_of_not_lt hle), newlines_append] at hlt
    omega
  · intro hlt
    rw [List.take_append_of_le_length hlt.le]
    have hsplit := List.take_append_drop n u
    rw [← hsplit] at h
    have hnew := h.newlines_lt (by simpa using hlt)
    rwa [hsplit] at hnew

end Text

namespace Segment

/-- A line number behind `limit` comes down by one line. -/
def lower (limit : Nat) (n : Int) : Int := if n ≤ limit then n else n + 1

/-- The segments of a stream that starts at an offset come down by one line, apart from those that
begin in front of the place `limit`. -/
def lowerFrom (limit : Nat) : Nat → List Segment → List Segment
  | _, [] => []
  | offset, s :: rest =>
      { s with line := if offset + s.onset < limit then s.line else s.line + 1 } ::
        lowerFrom limit (offset + s.source.length) rest

end Segment

namespace Marker
open Segment

section Fence
variable {line : Text}

/-- A line without quotes closes no literal. -/
theorem fence_newline (hd : '"' ∉ line) (hs : '\'' ∉ line) (hl : Text.WholeLines line) (v : Text) :
    Fence '\n' v (line ++ v) := by
  refine ⟨.inl rfl, ?_⟩
  intro q before hq hopen
  have hfree : q ∉ '\n' :: line := by
    rcases hq with rfl | rfl <;> simp [hd, hs]
  have hlast : ('\n' :: line).getLastD before = '\n' := by
    rw [List.getLastD_cons, List.getLastD_eq_getLast?]
    rcases hl with rfl | hl
    · rfl
    · rw [hl]
      rfl
  rw [← List.cons_append, closingQuote_append_of_notMem hfree, hlast]
  rw [← List.singleton_append,
    closingQuote_append_of_notMem (by rcases hq with rfl | rfl <;> decide)] at hopen
  simpa using hopen

end Fence

end Marker

namespace Scanner
open Marker Segment

/-- The second scanner does what the first one does, one line further down. -/
structure Lowered (limit : Nat) (s s' : Scanner) : Prop where
  mode : s'.mode = s.mode
  rest : s'.rest = s.rest
  held : s'.held = s.held
  line : s'.line = s.line + 1
  behind : limit < s.line
  start? : s'.start?.map Int.ofNat = s.start?.map fun n : Nat => lower limit n
  segments : List.Forall₂ (Revises (fun _ => id) (lower limit)) s.segments s'.segments

section Lowered
variable {limit : Nat} {s s' : Scanner}

theorem lower_of_lt {n : Nat} (h : limit < n) : lower limit n = (n + 1 : Nat) := by
  rw [lower, if_neg (by omega)]
  rfl

theorem Lowered.start_eq (h : Lowered limit s s') :
    ((s'.start?.getD s'.line : Nat) : Int) = lower limit (s.start?.getD s.line : Nat) := by
  have hstart := h.start?
  cases hs : s.start? with
  | none =>
      rw [hs, Option.map_none, Option.map_eq_none_iff] at hstart
      rw [hstart, Option.getD_none, Option.getD_none, h.line, lower_of_lt h.behind]
  | some n =>
      rw [hs, Option.map_some, Option.map_eq_some_iff] at hstart
      obtain ⟨m, hm, hmn⟩ := hstart
      rw [hm]
      exact hmn

theorem Lowered.apply (h : Lowered limit s s') (op : Op) :
    Lowered limit (s.apply op) (s'.apply op) := by
  have hbehind := h.behind
  cases op with
  | skip n =>
      refine ⟨h.mode, by simp [Scanner.apply, h.rest], h.held, ?_, ?_, h.start?, h.segments⟩
      · simp only [Scanner.apply, skip_line, h.rest, h.line]
        omega
      · simp only [Scanner.apply, skip_line]
        omega
  | keep n =>
      refine ⟨by simp [Scanner.apply, h.mode], by simp [Scanner.apply, h.rest],
        by simp [Scanner.apply, h.rest, h.held], ?_, ?_, ?_,
        by simpa [Scanner.apply] using h.segments⟩
      · simp only [Scanner.apply, keep_line, h.rest, h.line]
        omega
      · simp only [Scanner.apply, keep_line]
        omega
      · simp only [Scanner.apply, keep_start?, h.rest]
        split
        · exact h.start?
        · exact congrArg some h.start_eq
  | begin =>
      refine ⟨h.mode, h.rest, h.held, h.line, h.behind, ?_, h.segments⟩
      simp only [Scanner.apply, begin_start?, Option.map_some, h.line, lower_of_lt h.behind]
      rfl
  | flush kind =>
      refine ⟨by simp [Scanner.apply, h.mode], by simp [Scanner.apply, h.rest],
        by simp [Scanner.apply], by simp [Scanner.apply, h.line],
        by simpa [Scanner.apply] using hbehind, by simp [Scanner.apply], ?_⟩
      simp only [Scanner.apply, flush_segments, h.held]
      split
      · exact h.segments
      · exact .cons ⟨rfl, h.held, h.start_eq⟩ h.segments
  | enter mode => exact ⟨rfl, h.rest, h.held, h.line, h.behind, h.start?, h.segments⟩

theorem Lowered.finish (h : Lowered limit s s') (hne : s.segments ≠ []) :
    List.Forall₂ (Revises (fun _ => id) (lower limit)) s.finish s'.finish := by
  have hbare : ∀ {a b : List Segment}, List.Forall₂ (Revises (fun _ => id) (lower limit)) a b ↔
      List.Forall₂ (Revises (fun _ => id) (lower limit)) (a.map bare) (b.map bare) := by
    intro a b
    rw [List.forall₂_map_left_iff, List.forall₂_map_right_iff]
    exact ⟨.imp fun _ _ h => ⟨h.kind, h.content, h.line⟩,
      .imp fun _ _ h => ⟨h.kind, h.content, h.line⟩⟩
  have hne' : s'.segments ≠ [] := by
    intro hnil
    have hseg := h.segments
    rw [hnil, List.forall₂_nil_right_iff] at hseg
    exact hne hseg
  rw [hbare, finish_bare (.inl hne), finish_bare (.inl hne'), List.forall₂_reverse_iff, ← hbare]
  exact h.segments

end Lowered

section Junction
variable {u v line : Text} {s : Scanner}

/-- Segments that are finished within whole lines begin there. -/
theorem placed_line_le {segments : List Segment} {after behind : Text}
    (hp : Placed segments after) (hu : (reassemble segments.reverse ++ behind).WholeLines) :
    ∀ x ∈ segments, x.line ≤ Text.newlines (reassemble segments.reverse ++ behind) := by
  induction segments generalizing after behind with
  | nil => simp
  | cons last before ih =>
      obtain ⟨⟨dropped, own, hb⟩, hp⟩ := hp
      rw [List.reverse_cons, reassemble_append, reassemble_singleton, List.append_assoc] at hu ⊢
      intro x hx
      rcases List.mem_cons.mp hx with rfl | hx
      · rw [hb.source_eq, List.append_assoc, ← List.append_assoc] at hu ⊢
        have hlt := hu.newlines_lt (by simp [hb.own_ne])
        rw [hb.line_eq]
        omega
      · exact ih hp hu x hx

theorem passed_eq (hr : Reaches (ofText (u ++ v)) s) (hs : s.rest = v) : s.passed = u := by
  have hwhole := hr.passed_append
  rw [hs] at hwhole
  exact List.append_cancel_right hwhole

/-- What is pending in front of whole lines has started in front of their end. -/
theorem start_le (h : Dated s) (hu : s.passed.WholeLines) {n : Nat} (hn : s.start? = some n) :
    n ≤ Text.newlines s.passed := by
  rcases h.pending with ⟨-, hi⟩ | ⟨dropped, own, hst, hown, -⟩
  · rw [hi.start?] at hn
    cases hn
  · rw [hst.start_eq] at hn
    cases hn
    rw [passed, hst.spent_eq, ← List.append_assoc] at hu ⊢
    have hlt := hu.newlines_lt hown
    omega

theorem reaches_insert (hl : line.WholeLines) (hd : '"' ∉ line) (hq : '\'' ∉ line)
    (hu : u.WholeLines) (hr : Reaches (ofText (u ++ v)) s) (hs : s.rest = v) :
    Reaches (ofText (u ++ (line ++ v))) (s.before (line ++ v)) := by
  apply hr.exchange _ rfl hs
  intro a mode script ha hsuffix hgo hle
  obtain ⟨b, rfl⟩ : ∃ b, a = b ++ ['\n'] := by
    obtain ⟨front, rfl⟩ := hsuffix
    rcases hu with hu | hu
    · exact absurd (List.append_eq_nil_iff.mp hu).2 ha
    · rw [List.getLast?_append_of_ne_nil _ ha] at hu
      obtain ⟨b, hb⟩ := List.getLast?_eq_some_iff.mp hu
      exact ⟨b, hb⟩
  rw [List.append_assoc, List.singleton_append] at hgo ⊢
  exact plan_local (fence_newline hd hq hl v) hgo (.inr ⟨rfl, by simpa using hle⟩)

theorem step_insert (hline : DroppedLine v line) (hm : s.mode = .base) :
    (s.before (line ++ v)).step =
      .next (((s.before (line ++ v)).skip line.length).enter .base) := by
  have hdrops : Drops (line ++ v) := hline.drops v
  rw [step_next_iff]
  refine ⟨dropScript (line ++ v), ?_, by rw [dropScript, hline.wholeLine_eq]; rfl⟩
  rw [before_mode, hm, before_rest, plan_base_of_opensLine hdrops.opensLine, planLineComment]
  rcases hdrops with hlicense | hignore
  · rw [if_pos hlicense]
  · rw [hignore]
    simp

theorem lowered_insert (hu : u.WholeLines) (hr : Reaches (ofText (u ++ v)) s) (hs : s.rest = v)
    (hone : Text.newlines line = 1) (hm : s.mode = .base) :
    Lowered (Text.newlines u) s (((s.before (line ++ v)).skip line.length).enter .base) := by
  have hd := hr.dated (.ofText (u ++ v))
  have hpassed := passed_eq hr hs
  have hcount : s.line = 1 + Text.newlines u := by rw [hd.counted, hpassed]
  have hlines : s.passed.WholeLines := by rwa [hpassed]
  refine ⟨hm.symm, by simp [hs], rfl, by simp [hone], by omega, ?_, ?_⟩
  · cases hstart : s.start? with
    | none => simp [hstart]
    | some n =>
        have hle := start_le hd hlines hstart
        rw [hpassed] at hle
        simp [hstart, lower, hle]
  · have hle := placed_line_le hd.placed hlines
    rw [← passed, hpassed] at hle
    refine List.forall₂_same.mpr fun x hx => ⟨rfl, rfl, ?_⟩
    rw [lower, if_pos (hle x hx)]

end Junction

/-- The same fault, one line further down. -/
def FaultBelow (e e' : Fault × Scanner) : Prop :=
  e'.1 = e.1 ∧ e'.2.line = e.2.line + 1 ∧ e'.2.rest = e.2.rest

theorem FaultBelow.report_eq {e e' : Fault × Scanner} (h : FaultBelow e e') (file : Text) :
    e'.2.report file e'.1 = { e.2.report file e.1 with line := e.2.line + 1 } := by
  rw [report, report, h.1, h.2.1, h.2.2]

/-- Where the first run comes, the second one comes one line further down. -/
def Follows (limit : Nat) (text : Text) (s s' : Scanner) : Prop :=
  Lowered limit s s' ∧ Reaches (ofText text) s

theorem Follows.answers {limit : Nat} {text : Text} {s s' : Scanner}
    (hne : ¬DroppedLines [] text) (h : Follows limit text s s') :
    Answers (Follows limit text) FaultBelow
      (List.Forall₂ (Revises (fun _ => id) (lower limit))) s.step s'.run := by
  obtain ⟨hl, hr⟩ := h
  apply answers_of_plan_eq (by rw [hl.mode, hl.rest])
  · intro script hgo
    exact ⟨perform_related (fun op h => h.apply op) hl script,
      hr.concat (step_next_iff.mpr ⟨script, hgo, rfl⟩)⟩
  · intro hstop
    have hdone : s.step = .done (s.flush .code).finish := by rw [step_eq, hstop]; rfl
    obtain ⟨hm, hrest, -⟩ := step_done hdone
    exact (hl.apply (.flush .code)).finish (hr.segments_ne_nil hm hrest hne)
  · intro fault _
    exact ⟨rfl, hl.line, hl.rest⟩

end Scanner

namespace Segment
open Scanner

section Lower
variable {file u v : Text} {found : List Segment}

/-- A segment comes down iff it begins behind the whole lines. -/
theorem lower_scan_line (h : scan file (u ++ v) = .ok found) (hne : ¬DroppedLines [] (u ++ v))
    (hu : u.WholeLines) {before after : List Segment} {s : Segment}
    (hs : found = before ++ s :: after) :
    lower (Text.newlines u) s.line =
      if (reassemble before).length + s.onset < u.length then s.line else s.line + 1 := by
  have hline := scan_line h hne hs
  have hiff := hu.newlines_take_lt_iff v ((reassemble before).length + s.onset)
  have hle : s.line ≤ Text.newlines u ↔ (reassemble before).length + s.onset < u.length := by
    rw [← hiff, hline]
    omega
  simp only [lower, hle]

theorem bare_eq_lowerFrom (h : scan file (u ++ v) = .ok found) (hne : ¬DroppedLines [] (u ++ v))
    (hu : u.WholeLines) (before : List Segment) {rest rest' : List Segment}
    (hs : found = before ++ rest)
    (hrest : List.Forall₂ (Revises (fun _ => id) (lower (Text.newlines u))) rest rest') :
    rest'.map bare = (lowerFrom u.length (reassemble before).length rest).map bare := by
  induction hrest generalizing before with
  | nil => rfl
  | @cons x x' xs xs' hx _ ih =>
      have hline := lower_scan_line h hne hu hs
      have htail := ih (before ++ [x]) (by rw [hs, List.append_assoc, List.singleton_append])
      rw [reassemble_append, reassemble_singleton, List.length_append] at htail
      rw [lowerFrom, List.map_cons, List.map_cons, htail]
      congr 1
      exact bare_eq_bare.mpr ⟨hx.kind, hx.content, hx.line.trans hline⟩

end Lower

/-- A dropped line without quotes may be put between whole lines: the error, or every segment that
does not begin in front of it, comes down by one line, and nothing else changes. -/
theorem scan_insert (file : Text) {u v line : Text} {s : Scanner} (hline : DroppedLine v line)
    (hend : '\n' ∈ line) (hd : '"' ∉ line) (hq : '\'' ∉ line) (hu : u.WholeLines)
    (hne : ¬DroppedLines [] (u ++ v)) (hr : Reaches (ofText (u ++ v)) s) (hs : s.rest = v)
    (hm : s.mode = .base) :
    Corresponds (fun e e' => e' = { e with line := e.line + 1 })
      (fun found found' => found'.map bare = (lowerFrom u.length 0 found).map bare ∧
        Card.gather found' = (Card.gather found).map
          (Card.revise (fun _ => id) (lower (Text.newlines u))))
      (scan file (u ++ v)) (scan file (u ++ (line ++ v))) := by
  obtain ⟨body, hfree, hbody⟩ := hline.exists_body hend
  have hlines : line.WholeLines := .inr (by simp [hbody])
  have hone : Text.newlines line = 1 := by
    rw [hbody, Text.newlines_append, Text.newlines, List.count_eq_zero.mpr hfree]
    rfl
  have hrun' := (reaches_insert hlines hd hq hu hr hs).run_eq.trans
    (run_of_next (step_insert hline hm))
  have hcorr := run_corresponds (Follows.answers hne) ⟨lowered_insert hu hr hs hone hm, hr⟩
  rw [← hr.run_eq, ← hrun'] at hcorr
  have hscan : Corresponds (fun e e' => e' = { e with line := e.line + 1 })
      (List.Forall₂ (Revises (fun _ => id) (lower (Text.newlines u))))
      (scan file (u ++ v)) (scan file (u ++ (line ++ v))) :=
    scan_corresponds hcorr fun _ _ he => he.report_eq file
  refine hscan.imp (fun _ _ _ he => he) ?_
  intro found found' hok hall
  refine ⟨bare_eq_lowerFrom hok hne hu [] rfl hall, ?_⟩
  refine Card.gather_revise ?_ ?_ hall
  · exact fun _ _ => rfl
  · simp [lower]

/-- A license tag between code and a comment: the comment comes down, and so does the code behind
it. -/
theorem scan_insert_license :
    ∃ found', scan "a.sol" "a\n // SPDX-License-Identifier: MIT\n// b\nc" = .ok found' ∧
      found'.map bare =
        [{ kind := .code, content := "a\n", line := 1 },
          { kind := .lineComment, content := "b", line := 3 },
          { kind := .code, content := "c", line := 4 }] ∧
      Card.gather found' =
        [{ startLine := 1, code := ["a\n"], closed := true },
          { startLine := 4, code := ["c"], lineComments := ["b"] }] := by
  have hplain : scan "a.sol" ("a\n" ++ "// b\nc") =
      .ok [{ kind := .code, content := "a\n", line := 1, source := "a\n" },
        { kind := .lineComment, content := "b", line := 2, source := "// b\n" },
        { kind := .code, content := "c", line := 3, source := "c" }] := by
    with_unfolding_all rfl
  have hreach : ∃ s : Scanner, Reaches (ofText ("a\n" ++ "// b\nc")) s ∧ s.rest = "// b\nc" ∧
      s.mode = .base := ⟨_, .step rfl (.step rfl (.refl _)), rfl, rfl⟩
  obtain ⟨s, hr, hs, hm⟩ := hreach
  have hblank : Blanks " " := by
    intro c hc
    rw [List.mem_singleton.mp (show c ∈ [' '] from hc)]
    rfl
  have hline : DroppedLine "// b\nc"
      ((" " : Text) ++ "//" ++ " " ++ "SPDX-License-Identifier:" ++ " MIT" ++ "\n") :=
    .license hblank hblank (by decide) (.inl rfl)
  have hne : ¬DroppedLines [] ("a\n" ++ "// b\nc") :=
    fun h => absurd (h.drops (by decide)) (by decide)
  have hcorr := scan_insert "a.sol" hline (by decide) (by decide) (by decide) (.inr rfl) hne hr hs
    hm
  rw [hplain] at hcorr
  generalize hr : scan "a.sol" _ = r at hcorr
  cases hcorr with
  | ok hall =>
      obtain ⟨hfound, hcards⟩ := hall
      refine ⟨_, hr, hfound.trans ?_, hcards.trans ?_⟩
      · with_unfolding_all rfl
      · with_unfolding_all rfl

end Segment

end Marginalia
