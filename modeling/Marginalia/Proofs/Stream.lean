import Marginalia.Proofs.Failure
import Marginalia.Proofs.Invisible
import Marginalia.Proofs.Panel

/-!
# The form of a stream of segments

Code is emitted only if something was kept, a clear mark keeps nothing, and a line comment keeps
what stands behind its blanks on one line. A block comment is put together from lines that have lost
their indentation. Each of them but the last one ends in a line feed, so no terminator can arise
where two of them meet, and none stands within a line in front of the one that closes the comment.
-/
namespace Marginalia

namespace Text

/-- The text in front of the first place of a marker does not hold it. -/
theorem cut?_not_infix {marker t before behind : Text} (hm : marker ≠ [])
    (h : cut? marker t = some (before, behind)) : ¬marker <:+: before := by
  intro hin
  cases hcut : cut? marker before with
  | none => exact (cut?_eq_none_iff hm).mp hcut hin
  | some p =>
      have hlen := congrArg List.length (cut?_eq_some hcut)
      have hfirst := cut?_append hcut hm (marker ++ behind)
      rw [← List.append_assoc, ← cut?_eq_some h, h] at hfirst
      have hsame : before = p.1 := (Prod.mk.inj (Option.some.inj hfirst)).1
      have hpos := List.length_pos_iff.mpr hm
      rw [← hsame] at hlen
      simp only [List.length_append] at hlen
      omega

/-- A marker without a line feed does not stand across the end of a line. -/
theorem WholeLines.infix_append_iff {marker a b : Text} (ha : WholeLines a) (hm : '\n' ∉ marker) :
    marker <:+: a ++ b ↔ marker <:+: a ∨ marker <:+: b := by
  rcases ha with rfl | ha
  · rw [List.nil_append]
    exact ⟨.inr, fun h => h.elim (fun h => h.trans List.nil_infix) id⟩
  · obtain ⟨front, rfl⟩ := List.getLast?_eq_some_iff.mp ha
    have hfront := infix_append_cons_iff (a := front) (b := []) hm
    rw [List.append_assoc, List.singleton_append, infix_append_cons_iff hm, hfront]
    constructor
    · exact fun h => h.imp_left .inl
    · rintro ((h | h) | h)
      · exact .inl h
      · exact .inr (h.trans List.nil_infix)
      · exact .inr h

end Text

theorem Marker.head?_drop_margin (t : Text) :
    ∀ c ∈ (t.drop (margin t)).head?, isHorizontal c = false := by
  have hdrop : t.drop (margin t) = t.dropWhile isHorizontal := by
    have hsplit := List.take_append_drop (margin t) t
    rw [take_margin] at hsplit
    exact List.append_cancel_left (hsplit.trans List.takeWhile_append_dropWhile.symm)
  intro c hc
  have hhead := List.head?_dropWhile_not isHorizontal t
  rw [← hdrop, hc] at hhead
  simpa using hhead

namespace Segment

/-- What a segment of some kind may hold. -/
def Proper : Kind → Text → Prop
  | .code, content => content ≠ []
  | .lineComment, content => '\n' ∉ content ∧ ∀ c ∈ content.head?, isHorizontal c = false
  | .blockComment, content => ¬("*/" : Text) <:+: content
  | .clear, content => content = []
  | .unknown _, _ => False

/-- A stream of segments in which no two neighbours are code and every segment holds what it may
hold. Only a segment of code without any other one may be empty. -/
structure WellFormed (segments : List Segment) : Prop where
  apart : segments.IsChain Apart
  code : ∀ x ∈ segments, x.kind = .code → x.content ≠ [] ∨ segments = [x]
  clear : ∀ x ∈ segments, x.kind = .clear → x.content = []
  lineComment : ∀ x ∈ segments, x.kind = .lineComment →
    '\n' ∉ x.content ∧ ∀ c ∈ x.content.head?, isHorizontal c = false
  blockComment : ∀ x ∈ segments, x.kind = .blockComment → ¬("*/" : Text) <:+: x.content

end Segment

namespace Scanner
open Segment Marker

/-- Finished segments hold what they may hold. What is held within a block comment is made of whole
lines without a terminator, unless the file has ended and the run is about to fail. -/
structure Orderly (s : Scanner) : Prop where
  proper : ∀ x ∈ s.segments, Proper x.kind x.content
  inside : ¬s.mode.Outside → s.rest = [] ∨ s.held.WholeLines ∧ ¬("*/" : Text) <:+: s.held

section Orderly
variable {s t u : Scanner}

theorem Orderly.of_outside (hm : s.mode.Outside)
    (h : ∀ x ∈ s.segments, Proper x.kind x.content) : Orderly s :=
  ⟨h, fun hin => absurd hm hin⟩

theorem Orderly.flush_code (h : Orderly s) :
    ∀ x ∈ (s.flush .code).segments, Proper x.kind x.content := by
  rw [flush_segments]
  split
  · exact h.proper
  · next hne =>
    have hheld : s.held ≠ [] := fun hnil => hne ⟨rfl, hnil⟩
    exact List.forall_mem_cons.mpr ⟨hheld, h.proper⟩

theorem orderly_emit {kind : Kind} (hk : kind ≠ .code)
    (h : ∀ x ∈ s.segments, Proper x.kind x.content) (hheld : Proper kind s.held) :
    Orderly ((s.flush kind).enter .base) := by
  refine .of_outside (.inl rfl) ?_
  rw [segments_emit hk]
  exact List.forall_mem_cons.mpr ⟨hheld, h⟩

/-- The words of a line comment stand on one line, behind all blanks. -/
theorem proper_words (t : Text) :
    Proper .lineComment ((t.drop (lineCommentLead t)).take
      (Text.dropEnding "\r" (Text.firstLine (t.drop (lineCommentLead t)))).length) := by
  have hhead : ∀ c ∈ (t.drop (lineCommentLead t)).head?, isHorizontal c = false := by
    rw [lineCommentLead, ← List.drop_drop]
    exact head?_drop_margin _
  generalize t.drop (lineCommentLead t) = words at hhead ⊢
  have hpre := Text.dropEnding_isPrefix "\r" (Text.firstLine words)
  have htake : words.take (Text.dropEnding "\r" (Text.firstLine words)).length =
      Text.dropEnding "\r" (Text.firstLine words) :=
    (List.prefix_iff_eq_take.mp (hpre.trans (List.takeWhile_prefix _))).symm
  constructor
  · rw [htake]
    exact fun hmem => Text.newline_notMem_firstLine words (hpre.subset hmem)
  · intro c hc
    rw [List.head?_take] at hc
    split at hc
    · cases hc
    · exact hhead c hc

/-- A line that does not close the comment adds a whole line to what is held. -/
theorem Orderly.blockLine {indent : Nat} (h : Orderly s) (hm : s.mode = .block indent)
    (hne : s.rest ≠ []) (ht : t = s.skip (marginUpTo indent s.rest))
    (hcut : Text.cut? "*/" (Text.firstLine t.rest) = none) :
    Orderly ((t.keep (wholeLine t.rest)).enter (.block indent)) := by
  refine ⟨by simpa [ht] using h.proper, fun _ => ?_⟩
  have hin : ¬s.mode.Outside := hm ▸ Mode.not_outside_block indent
  obtain ⟨hwhole, hfree⟩ := (h.inside hin).resolve_left hne
  have hheld : ((t.keep (wholeLine t.rest)).enter (.block indent)).held =
      s.held ++ t.rest.take (wholeLine t.rest) := by
    simp [ht]
  obtain ⟨ending, htake, hend⟩ := take_wholeLine t.rest
  rw [Text.cut?_eq_none_iff (by decide)] at hcut
  rcases hend with rfl | ⟨-, hnil⟩
  · right
    rw [hheld, htake]
    constructor
    · exact .inr (by rw [← List.append_assoc, List.getLast?_concat])
    · have hline : ("*/" : Text) <:+: Text.firstLine t.rest ++ ['\n'] ↔
          ("*/" : Text) <:+: Text.firstLine t.rest ∨ ("*/" : Text) <:+: [] :=
        Text.infix_append_cons_iff (by decide)
      rw [hwhole.infix_append_iff (by decide), hline]
      rintro (hin | hin | hin)
      · exact hfree hin
      · exact hcut hin
      · exact absurd hin (by decide)
  · left
    simpa using hnil

/-- The line that closes the comment adds what stands in front of the terminator. -/
theorem Orderly.closeBlock {indent : Nat} {body behind : Text} (h : Orderly s)
    (hm : s.mode = .block indent) (ht : t = s.skip (marginUpTo indent s.rest))
    (hcut : Text.cut? "*/" (Text.firstLine t.rest) = some (body, behind))
    (hu : u = (t.keep body.length).skip 2) :
    Orderly ((u.skipTrailing.flush .blockComment).enter .base) := by
  obtain ⟨-, more, hmore⟩ := Text.cut?_firstLine hcut
  have hin : ¬s.mode.Outside := hm ▸ Mode.not_outside_block indent
  have hne : s.rest ≠ [] := by
    intro hnil
    rw [ht, skip_rest, hnil, List.drop_nil] at hmore
    simp at hmore
  obtain ⟨hwhole, hfree⟩ := (h.inside hin).resolve_left hne
  have hheld : u.skipTrailing.held = s.held ++ body := by
    rw [skipTrailing_held, hu, skip_held, keep_held, hmore, List.take_left, ht, skip_held]
  refine orderly_emit (by decide) (by simpa [hu, ht] using h.proper) ?_
  rw [hheld]
  intro hinfix
  rcases (hwhole.infix_append_iff (by decide)).mp hinfix with hinfix | hinfix
  · exact hfree hinfix
  · exact Text.cut?_not_infix (by decide) hcut hinfix

theorem Move.orderly (hmove : Move s t) (h : Orderly s) : Orderly t := by
  cases hmove with
  | keep _ hm => exact .of_outside hm (by simpa using h.proper)
  | drop _ _ _ => exact .of_outside (.inl rfl) h.proper
  | clear _ _ _ => exact orderly_emit (by decide) h.flush_code (flush_held .code s)
  | @lineComment v w _ _ _ _ hv hw =>
      refine orderly_emit (by decide) ?_ ?_
      · simpa [hw, hv] using h.flush_code
      · have hwords := proper_words s.rest
        simpa [hw, hv] using hwords
  | openBlock _ _ =>
      refine ⟨h.flush_code, fun _ => .inr ?_⟩
      have hheld : (((s.flush .code).begin.skip (margin s.rest + 2)).enter
          (.block (margin s.rest + blockIndentGap))).held = [] := by simp
      rw [hheld]
      exact ⟨.inl rfl, by decide⟩
  | blockLine hm hne hv hcut => exact h.blockLine hm hne hv hcut
  | closeBlock hm hv hcut hw => exact h.closeBlock hm hv hcut hw

theorem Reaches.orderly {text : Text} (h : Reaches (ofText text) s) : Orderly s :=
  h.invariant Move.orderly (.of_outside (.inl rfl) fun _ hx => by cases hx)

/-- Every segment of a file holds what it may hold, but for the one of a file without any other. -/
theorem run_proper {text : Text} {segments : List Segment} (h : (ofText text).run = .ok segments)
    {x : Segment} (hx : x ∈ segments) :
    Proper x.kind x.content ∨ x.kind = .code ∧ segments = [x] := by
  obtain ⟨t, hreach, hdone⟩ := run_ok_iff.mp h
  obtain ⟨-, -, rfl⟩ := step_done hdone
  have hproper := hreach.orderly.flush_code
  cases hseg : (t.flush .code).segments with
  | nil =>
      right
      unfold finish at hx ⊢
      split at hx
      · simp [hseg] at hx
      · next hc =>
        simp only [hseg] at hx ⊢
        rw [if_neg hc, List.mem_singleton.mp hx]
        exact ⟨rfl, rfl⟩
  | cons last before =>
      left
      rw [hseg, List.forall_mem_cons] at hproper
      rw [finish_of_segments hseg, List.mem_append, List.mem_reverse, List.mem_singleton] at hx
      rcases hx with hx | rfl
      · exact hproper.2 x hx
      · exact hproper.1

end Orderly

end Scanner

namespace Segment
open Scanner

/-- The segments of a file are a well-formed stream, and none of its cards takes more than one piece
of code. -/
theorem scan_wellFormed {file text : Text} {segments : List Segment}
    (h : scan file text = .ok segments) :
    WellFormed segments ∧ ∀ card ∈ Card.gather segments, card.code.length ≤ 1 := by
  rw [scan_eq_ok] at h
  have hproper : ∀ x ∈ segments, x.kind ≠ .code → Proper x.kind x.content :=
    fun x hx hk => (run_proper h hx).resolve_right fun hcode => hk hcode.1
  constructor
  · constructor
    · exact run_apart h
    · intro x hx hk
      have hx := run_proper h hx
      rw [hk] at hx
      exact hx.imp_right And.right
    · intro x hx hk
      have hx := hproper x hx (by simp [hk])
      rwa [hk] at hx
    · intro x hx hk
      have hx := hproper x hx (by simp [hk])
      rwa [hk] at hx
    · intro x hx hk
      have hx := hproper x hx (by simp [hk])
      rwa [hk] at hx
  · intro card hcard
    by_cases hcode : card.code = []
    · rw [hcode]
      exact Nat.zero_le 1
    · obtain ⟨x, -, hshows⟩ := Card.exists_shows h hcard hcode
      rw [hshows.code]
      exact Nat.le_refl 1

/-- Star and slash on two lines of a block comment, of which the second one is indented, between
code with a dropped line inside and a clear mark. -/
theorem scan_wellFormed_mixed :
    ∃ segments : List Segment,
      scan "a.sol" "x\n//+ignore+\ny\n /* *\n     / */\n//+clear+\n//  z\nw" = .ok segments ∧
      segments.map (·.kind) = [.code, .blockComment, .clear, .lineComment, .code] ∧
      segments.map (·.content) = ["x\ny\n", "*\n / ", "", "z", "w"].map String.toList ∧
      WellFormed segments ∧ ∀ card ∈ Card.gather segments, card.code.length ≤ 1 := by
  have h : scan "a.sol" "x\n//+ignore+\ny\n /* *\n     / */\n//+clear+\n//  z\nw" =
      .ok [{ kind := .code, content := "x\ny\n", line := 1, source := "x\n//+ignore+\ny\n" },
           { kind := .blockComment, content := "*\n / ", line := 4,
             source := " /* *\n     / */\n" },
           { kind := .clear, content := [], line := 6, source := "//+clear+\n" },
           { kind := .lineComment, content := "z", line := 7, source := "//  z\n" },
           { kind := .code, content := "w", line := 8, source := "w" }] := by
    with_unfolding_all rfl
  exact ⟨_, h, rfl, rfl, scan_wellFormed h⟩

end Segment

end Marginalia
