import Marginalia.Proofs.Emission
import Marginalia.Proofs.Grouping
import Marginalia.Proofs.Revision
import Mathlib.Algebra.Group.Int.Defs
import Mathlib.Algebra.Group.Nat.Defs

/-!
# Code panels

The code of a file is emitted only in front of a comment or a clear mark, so no two segments of code
are neighbours. Hence the code of a card is that of a single segment, and its panel shows the
content of that segment without the last line end, beside numbers that start with its line.
-/
namespace Marginalia

namespace Text

theorem newline_notMem_ofInt (n : Int) : '\n' ∉ ofInt n := by
  have hnat : ∀ k : Nat, '\n' ∉ ofNat k := by
    intro k hmem
    have hdigit := Nat.isDigit_of_mem_toDigits (by decide) (by decide) hmem
    exact absurd hdigit (by decide)
  cases n with
  | ofNat k => exact hnat k
  | negSucc k =>
      rw [ofInt, List.mem_cons, not_or]
      exact ⟨by decide, hnat _⟩

end Text

namespace Segment

/-- Not both of them code. -/
def Apart (x y : Segment) : Prop := ¬(x.isCode ∧ y.isCode)

theorem isChain_middle {a b c : List Segment} (h : (a ++ b ++ c).IsChain Apart) :
    b.IsChain Apart :=
  (List.isChain_append.mp (List.isChain_append.mp h).1).2.1

end Segment

namespace Scanner
open Segment Marker

/-- No two segments of code are neighbours, and outside block comments the last segment is none. -/
structure Alternates (s : Scanner) : Prop where
  apart : s.segments.IsChain Apart
  last : s.mode.Outside → ∀ x ∈ s.segments.head?, x.isCode = false

section Alternates
variable {s t : Scanner} {text : Text}

theorem Alternates.flush_code (h : Alternates s) (hm : s.mode.Outside) :
    (s.flush .code).segments.IsChain Apart := by
  rw [flush_segments]
  split
  · exact h.apart
  · refine List.isChain_cons.mpr ⟨fun x hx hboth => ?_, h.apart⟩
    rw [h.last hm x hx] at hboth
    cases hboth.2

theorem alternates_flush {kind : Kind} (hk : kind ≠ .code) (h : s.segments.IsChain Apart) :
    Alternates ((s.flush kind).enter .base) := by
  have hcode : (s.pending kind).isCode = false := by simp [isCode, pending, hk]
  have hseg := segments_emit hk s
  constructor
  · rw [hseg]
    refine List.isChain_cons.mpr ⟨fun x _ hboth => ?_, h⟩
    rw [hcode] at hboth
    cases hboth.1
  · intro _ x hx
    rw [hseg] at hx
    cases hx
    exact hcode

theorem Move.alternates (h : Move s t) (hs : Alternates s) : Alternates t := by
  cases h with
  | keep hm _ => exact ⟨by simpa using hs.apart, fun _ => by simpa using hs.last hm⟩
  | drop hm _ _ => exact ⟨hs.apart, fun _ => hs.last (.inl hm)⟩
  | clear hm _ _ => exact alternates_flush (by decide) (hs.flush_code (.inl hm))
  | lineComment hm _ _ _ ht hu =>
      refine alternates_flush (by decide) ?_
      simpa [ht, hu] using hs.flush_code (.inl hm)
  | openBlock hm _ =>
      exact ⟨hs.flush_code (.inl hm), fun hb => absurd hb (Mode.not_outside_block _)⟩
  | blockLine _ _ ht _ =>
      exact ⟨by simpa [ht] using hs.apart, fun hb => absurd hb (Mode.not_outside_block _)⟩
  | closeBlock _ ht _ hu =>
      refine alternates_flush (by decide) ?_
      simpa [ht, hu] using hs.apart

theorem run_apart {segments : List Segment} (h : (ofText text).run = .ok segments) :
    segments.IsChain Apart := by
  obtain ⟨t, hreach, hdone⟩ := run_ok_iff.mp h
  obtain ⟨hm, -, rfl⟩ := step_done hdone
  have halt : Alternates t :=
    hreach.invariant Move.alternates ⟨List.isChain_nil, fun _ _ hx => by cases hx⟩
  have hchain := halt.flush_code hm
  cases hseg : (t.flush .code).segments with
  | nil =>
      unfold finish
      split <;> simp [hseg]
  | cons last before =>
      rw [hseg, List.isChain_cons] at hchain
      rw [finish_of_segments hseg, ← List.reverse_cons, List.isChain_reverse]
      exact List.isChain_cons.mpr ⟨fun x hx => mt And.symm (hchain.1 x hx),
        hchain.2.imp fun x y hxy => mt And.symm hxy⟩

/-- Scanning gives segments of the four known kinds. -/
theorem run_isKnown {segments : List Segment} (h : (ofText text).run = .ok segments) :
    ∀ x ∈ segments, x.isKnown := by
  intro x hx
  obtain ⟨p, q, rfl⟩ := List.append_of_mem hx
  rcases exists_emits h with ⟨s, _, he, -⟩ | ⟨-, -, -, rfl⟩
  · generalize hk : x.kind = kind at he
    cases he with
    | code _ _ _ _ => simp [isKnown, isCode, hk]
    | final _ _ _ _ => simp [isKnown, isCode, hk]
    | line _ _ _ _ _ hline _ _ =>
        rcases hline with rfl | rfl <;> simp [isKnown, isComment, isClear, hk]
    | block _ _ _ _ => simp [isKnown, isComment, hk]
  · rfl

end Alternates

end Scanner

namespace Card
open Segment

/-- The code of a card is that of one segment. -/
structure Shows (c : Card) (x : Segment) : Prop where
  kind : x.kind = .code
  code : c.code = [x.content]
  startLine : c.startLine = x.line

theorem filter_isCode_run {comments code clears : List Segment}
    (hcomments : ∀ s ∈ comments, s.isComment) (hcode : ∀ s ∈ code, s.isCode)
    (hclears : ∀ s ∈ clears, s.isClear) :
    (comments ++ code ++ clears).filter isCode = code := by
  have hfirst : comments.filter isCode = [] := by
    refine List.filter_eq_nil_iff.mpr fun s hs => ?_
    have hcomment := hcomments s hs
    grind [isComment, isCode]
  have hlast : clears.filter isCode = [] := by
    refine List.filter_eq_nil_iff.mpr fun s hs => ?_
    have hclear := hclears s hs
    grind [isClear, isCode]
  rw [List.filter_append, List.filter_append, hfirst, hlast, List.filter_eq_self.mpr hcode,
    List.nil_append, List.append_nil]

theorem shows_ofRun {closed : Bool} {run : List Segment} (hrun : IsRun run)
    (h : run.IsChain Apart) (hcode : (ofRun closed run).code ≠ []) :
    ∃ x ∈ run, (ofRun closed run).Shows x := by
  obtain ⟨comments, code, clears, rfl, hcomments, hall, hclears⟩ := hrun
  have hfilter := filter_isCode_run hcomments hall hclears
  have hchain := isChain_middle h
  simp only [ofRun, hfilter] at hcode ⊢
  rcases code with _ | ⟨x, _ | ⟨y, rest⟩⟩
  · exact absurd rfl hcode
  · exact ⟨x, by simp, by simpa [isCode] using hall x, rfl, rfl⟩
  · have hxy := (List.isChain_cons_cons.mp hchain).1
    exact absurd ⟨hall x (by simp), hall y (by simp)⟩ hxy

theorem mem_ofRuns {card : Card} {rs : List (List Segment)} (h : card ∈ ofRuns rs)
    (hcode : card.code ≠ []) : ∃ run ∈ rs, ∃ closed, card = ofRun closed run := by
  induction rs with
  | nil =>
      rw [ofRuns, List.mem_singleton] at h
      exact absurd (congrArg Card.code h) hcode
  | cons run rs ih =>
      cases rs with
      | nil => exact ⟨run, by simp, _, List.mem_singleton.mp h⟩
      | cons next later =>
          rcases List.mem_cons.mp h with rfl | h
          · exact ⟨run, by simp, _, rfl⟩
          · obtain ⟨run', hmem, hcard⟩ := ih h
            exact ⟨run', .tail _ hmem, hcard⟩

/-- The cards of runs are in the order of what they show. -/
theorem pairwise_ofRuns {R : Segment → Segment → Prop} {rs : List (List Segment)}
    (hrs : ∀ run ∈ rs, IsRun run ∧ run.IsChain Apart)
    (h : rs.Pairwise fun run next => ∀ x ∈ run, ∀ y ∈ next, R x y) :
    (ofRuns rs).Pairwise fun c d => c.code ≠ [] → d.code ≠ [] →
      ∃ x y, c.Shows x ∧ d.Shows y ∧ R x y := by
  induction rs with
  | nil => exact List.pairwise_singleton _ _
  | cons run rs ih =>
      cases rs with
      | nil => exact List.pairwise_singleton _ _
      | cons next later =>
          obtain ⟨hfirst, hlater⟩ := List.pairwise_cons.mp h
          obtain ⟨hrun, hruns⟩ := List.forall_mem_cons.mp hrs
          refine List.pairwise_cons.mpr ⟨fun d hd hc hd' => ?_, ih hruns hlater⟩
          obtain ⟨x, hx, hcx⟩ := shows_ofRun hrun.1 hrun.2 hc
          obtain ⟨run', hrun', closed, rfl⟩ := mem_ofRuns hd hd'
          obtain ⟨y, hy, hdy⟩ := shows_ofRun (hruns run' hrun').1 (hruns run' hrun').2 hd'
          exact ⟨x, y, hcx, hdy, hfirst run' hrun' x hx y hy⟩

section Stream
variable {text : Text} {segments : List Segment}

theorem flatten_runs (h : (Scanner.ofText text).run = .ok segments) :
    (runs segments).flatten = segments := by
  rw [runs, List.flatten_splitBy, List.filter_eq_self.mpr (Scanner.run_isKnown h)]

theorem isRun_apart (h : (Scanner.ofText text).run = .ok segments) :
    ∀ run ∈ runs segments, IsRun run ∧ run.IsChain Apart := by
  intro run hrun
  obtain ⟨a, b, hflat⟩ := List.infix_of_mem_flatten hrun
  have hapart := Scanner.run_apart h
  rw [← flatten_runs h, ← hflat] at hapart
  exact ⟨isRun_of_mem_runs hrun, isChain_middle hapart⟩

/-- A card with code shows one segment of the file. -/
theorem exists_shows (h : (Scanner.ofText text).run = .ok segments) {card : Card}
    (hcard : card ∈ gather segments) (hcode : card.code ≠ []) :
    ∃ x ∈ segments, card.Shows x := by
  rw [gather_eq_ofRuns] at hcard
  obtain ⟨run, hrun, closed, rfl⟩ := mem_ofRuns hcard hcode
  obtain ⟨x, hx, hshows⟩ := shows_ofRun (isRun_apart h run hrun).1 (isRun_apart h run hrun).2 hcode
  refine ⟨x, ?_, hshows⟩
  rw [← flatten_runs h]
  exact List.mem_flatten.mpr ⟨run, hrun, hx⟩

theorem pairwise_shows {R : Segment → Segment → Prop}
    (h : (Scanner.ofText text).run = .ok segments) (hR : segments.Pairwise R) :
    (gather segments).Pairwise fun c d => c.code ≠ [] → d.code ≠ [] →
      ∃ x y, c.Shows x ∧ d.Shows y ∧ R x y := by
  rw [gather_eq_ofRuns]
  refine pairwise_ofRuns (isRun_apart h) ?_
  rw [← flatten_runs h, List.pairwise_flatten] at hR
  exact hR.2

end Stream

/-- The code of a single segment loses its last line end and nothing else. -/
theorem joinCode_singleton (t : Text) :
    ∃ ending, t = joinCode [t] ++ ending ∧
      (IsLineBreak ending ∨ ending = [] ∧ t.getLast? ≠ some '\n') := by
  have hflat : [t].flatten = t := by simp
  unfold joinCode
  rw [hflat]
  split
  · next u hu => exact ⟨_, Text.dropEnding?_eq_some.mp hu, .inl (.inr rfl)⟩
  · rcases Text.eq_dropEnding_or "\n" t with h | h
    · refine ⟨[], by rw [List.append_nil]; exact h, .inr ⟨rfl, fun hlast => ?_⟩⟩
      obtain ⟨u, rfl⟩ := List.getLast?_eq_some_iff.mp hlast
      have hdrop : Text.dropEnding "\n" (u ++ ['\n']) = u := Text.dropEnding_append _ u
      rw [hdrop] at h
      simp at h
    · exact ⟨_, h, .inl (.inl rfl)⟩

theorem lineBelow_eq {start : Int} {k : Nat} (h : 0 ≤ start + k) (hlt : start + k < 2 ^ 63) :
    lineBelow start k = start + k :=
  Int.bmod_eq_of_le (by omega) (by omega)

theorem splitAtChar_gutter (start : Int) (code : Text) :
    Text.splitAtChar '\n' (gutter start code) =
      (List.range (Text.newlines code + 1)).map fun k => Text.ofInt (lineBelow start k) := by
  refine Text.splitAtChar_join (by simp) fun t ht => ?_
  obtain ⟨k, -, rfl⟩ := List.mem_map.mp ht
  exact Text.newline_notMem_ofInt _

section Finish
variable {σ ε : Type} {press : Press (StateT σ (Except ε))}

theorem finish_startLine {c : Card} {finished : FinishedCard} {a b : σ}
    (h : (finish press c).run a = .ok (finished, b)) : finished.startLine = c.startLine := by
  unfold finish at h
  obtain ⟨_, _, _, h⟩ := run_bind_eq_ok h
  obtain ⟨_, _, _, h⟩ := run_bind_eq_ok h
  simp only at h
  split at h
  · cases h
    rfl
  · obtain ⟨_, _, _, h⟩ := run_bind_eq_ok h
    cases h
    rfl

/-- Start line, code and gutter of finished cards are those of the cards. -/
theorem finishAll_shown {cards : List Card} {finished : List FinishedCard} {a b : σ}
    (h : (finishAll press cards).run a = .ok (finished, b)) :
    finished.map (fun f => (f.startLine, f.code, f.gutter)) =
      cards.map (fun c => (c.startLine, c.panel)) :=
  finishAll_map (fun hf => Prod.ext (finish_startLine hf) (finish_panel hf)) h

/-- A panel that is not empty shows the code of its card. -/
theorem panel_eq {c : Card} (h : c.panel.1 ≠ []) :
    c.code ≠ [] ∧ c.panel = (joinCode c.code, gutter c.startLine (joinCode c.code)) := by
  simp only [panel] at h ⊢
  split at h
  · exact absurd rfl h
  · next hb =>
    rw [if_neg hb]
    refine ⟨fun hnil => hb ?_, rfl⟩
    rw [hnil]
    rfl

/-- A finished card with a panel shows one segment of the file. -/
theorem exists_segment {text : Text} {segments : List Segment} {finished : List FinishedCard}
    {f : FinishedCard} {a b : σ} (h : (Scanner.ofText text).run = .ok segments)
    (hfinish : (finishAll press (gather segments)).run a = .ok (finished, b)) (hf : f ∈ finished)
    (hcode : f.hasCode) :
    ∃ x ∈ segments, x.kind = .code ∧ f.startLine = x.line ∧ f.code = joinCode [x.content] ∧
      f.gutter = gutter f.startLine f.code := by
  have hmem := List.mem_map_of_mem (f := fun f => (f.startLine, f.code, f.gutter)) hf
  rw [finishAll_shown hfinish] at hmem
  obtain ⟨c, hc, hshown⟩ := List.mem_map.mp hmem
  obtain ⟨hstart, hpanel⟩ := Prod.mk.inj hshown
  have hne : c.panel.1 ≠ [] := by
    rw [hpanel]
    simpa [FinishedCard.hasCode] using hcode
  obtain ⟨hcard, heq⟩ := panel_eq hne
  obtain ⟨x, hx, hshows⟩ := exists_shows h hc hcard
  rw [heq] at hpanel
  obtain ⟨hc, hg⟩ := Prod.mk.inj hpanel
  refine ⟨x, hx, hshows.kind, ?_, ?_, ?_⟩
  · rw [← hstart, hshows.startLine]
  · rw [← hc, hshows.code]
  · rw [← hg, ← hstart, hc]

end Finish

end Card

end Marginalia
