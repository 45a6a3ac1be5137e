import Marginalia.Proofs.Decomposition
import Marginalia.Proofs.Grouping
import Marginalia.Proofs.LineEnding.Scan
import Marginalia.Proofs.Revision

/-!
# Line endings do not matter

A file whose lines end in a carriage return and a line feed is segmented as the file with plain line
feeds, and fails where that one fails. Line comments and clear marks have the same contents, since
they hold no line feed; code and block comments have returns in front of their line feeds. The cards
stand on the same lines and are closed alike, and a finished card shows the same numbers beside the
same code with returns.
-/
namespace Marginalia

namespace Segment
open Text

theorem Recorded.exists_origin {segments : List Segment} {s : Segment} {after : Text}
    (h : Recorded segments after) (hs : s ∈ segments) :
    ∃ later, Origin later s.kind s.source s.content := by
  induction segments generalizing after with
  | nil => cases hs
  | cons last before ih =>
      rcases List.mem_cons.mp hs with rfl | hs
      · exact ⟨after, h.1⟩
      · exact ih h.2 hs

theorem Origin.newline_notMem {after source content : Text} {kind : Kind}
    (h : Origin after kind source content) (hk : kind = .lineComment ∨ kind = .clear) :
    '\n' ∉ content := by
  cases h with
  | code _ => simp at hk
  | mark _ hspelled =>
      cases hspelled with
      | lineComment _ _ hfree _ => exact hfree
      | blockComment _ _ _ _ _ => simp at hk
      | clear _ _ _ => exact List.not_mem_nil

theorem Thinned.subset {after source content : Text} (h : Thinned after source content) :
    content ⊆ source := by
  induction h with
  | done => exact List.Subset.refl _
  | keep c _ ih => exact List.cons_subset_cons c ih
  | drop _ _ ih => exact fun c hc => List.mem_append_right _ (ih hc)

theorem Origin.subset {after source content : Text} (h : Origin after .code source content) :
    content ⊆ source := by
  cases h with
  | code hthin => exact hthin.subset
  | mark _ hspelled => cases hspelled

theorem mem_finish {s : Scanner} {segment : Segment} (h : segment ∈ s.finish) :
    segment.kind = .code ∧ segment.content = [] ∨
      ∃ found ∈ s.segments, found.kind = segment.kind ∧ found.content = segment.content := by
  by_cases hc : s.segments ≠ [] ∨ s.consumed = []
  · have hmem := List.mem_map_of_mem (f := bare) h
    rw [Scanner.finish_bare hc, List.mem_reverse, List.mem_map] at hmem
    obtain ⟨found, hfound, he⟩ := hmem
    rw [bare_eq_bare] at he
    exact .inr ⟨found, hfound, he.1, he.2.1⟩
  · simp only [not_or, not_not] at hc
    simp only [Scanner.finish, hc.1, if_neg hc.2, List.mem_singleton] at h
    exact .inl ⟨by rw [h], by rw [h]⟩

theorem source_subset_whole {s : Scanner} {segment : Segment} (h : segment ∈ s.segments) :
    segment.source ⊆ s.whole := by
  intro c hc
  apply List.mem_append_left
  exact List.mem_flatMap.mpr ⟨segment, List.mem_reverse.mpr h, hc⟩

/-- A segment of a file is empty code, or has an origin in the file. -/
theorem origin_of_mem_scan {file text : Text} {segments : List Segment} {s : Segment}
    (h : scan file text = .ok segments) (hs : s ∈ segments) :
    s.kind = .code ∧ s.content = [] ∨
      ∃ after source, Origin after s.kind source s.content ∧ source ⊆ text := by
  obtain ⟨t, hreach, hdone⟩ := Scanner.run_ok_iff.mp (scan_eq_ok.mp h)
  have htraced : t.Traced := hreach.invariant Scanner.Move.traced (.ofText text)
  obtain ⟨hm, _, rfl⟩ := Scanner.step_done hdone
  rcases mem_finish hs with hempty | ⟨found, hfound, hkind, hcontent⟩
  · exact .inl hempty
  · obtain ⟨after, ho⟩ := (htraced.flush_code hm).1.exists_origin hfound
    rw [hkind, hcontent] at ho
    refine .inr ⟨after, found.source, ho, ?_⟩
    have hsub := source_subset_whole hfound
    rwa [Scanner.whole_flush, hreach.whole_eq] at hsub

theorem newline_notMem_of_mem_scan {file text : Text} {segments : List Segment} {s : Segment}
    (h : scan file text = .ok segments) (hs : s ∈ segments)
    (hk : s.kind = .lineComment ∨ s.kind = .clear) : '\n' ∉ s.content := by
  rcases origin_of_mem_scan h hs with ⟨hcode, _⟩ | ⟨_, _, ho, _⟩
  · simp [hcode] at hk
  · exact ho.newline_notMem hk

theorem code_subset_of_mem_scan {file text : Text} {segments : List Segment} {s : Segment}
    (h : scan file text = .ok segments) (hs : s ∈ segments) (hk : s.kind = .code) :
    s.content ⊆ text := by
  rcases origin_of_mem_scan h hs with ⟨_, hnil⟩ | ⟨_, _, ho, hsub⟩
  · rw [hnil]
    exact List.nil_subset _
  · rw [hk] at ho
    exact fun c hc => hsub (ho.subset hc)

end Segment

namespace Text

theorem commentBody_withReturns (t : Text) :
    Card.commentBody (withReturns t) = withReturns (Card.commentBody t) := by
  unfold Card.commentBody trimStart
  induction t with
  | nil => rfl
  | cons c cs ih =>
      by_cases hc : c = '\n'
      · subst hc
        simpa using ih
      · rw [withReturns_cons hc]
        by_cases hr : c = '\r'
        · subst hr
          simpa using ih
        · simp [hc, hr, withReturns_cons hc]

theorem isEmpty_withReturns (t : Text) : (withReturns t).isEmpty = t.isEmpty := by
  rw [Bool.eq_iff_iff, List.isEmpty_iff, List.isEmpty_iff, withReturns_eq_nil_iff]

theorem isBlank_withReturns (t : Text) : (withReturns t).isBlank = t.isBlank := by
  induction t with
  | nil => rfl
  | cons c cs ih =>
      by_cases hc : c = '\n'
      · subst hc
        simpa [isBlank, isSpace] using ih
      · rw [isBlank, isBlank, withReturns_cons hc, List.all_cons, List.all_cons, ← isBlank, ih]
        rfl

end Text

namespace Card
open Text

/-- A card of the text with returns. Line comments hold no line feed. -/
def withReturns (c : Card) : Card :=
  { c with
    code := c.code.map Text.withReturns
    blockComments := c.blockComments.map Text.withReturns }

theorem dropEnding?_concat (ending : Text) {c d : Char} (h : c ≠ d) (t : Text) :
    dropEnding? (ending ++ [d]) (t ++ [c]) = none := by
  rw [Option.eq_none_iff_forall_ne_some]
  intro front hf
  have heq := dropEnding?_eq_some.mp hf
  rw [← List.append_assoc] at heq
  exact h (List.append_inj' heq rfl |>.2 |> List.singleton_inj.mp)

theorem flatten_withReturns (code : List Text) :
    (code.map Text.withReturns).flatten = Text.withReturns code.flatten := by
  induction code with
  | nil => rfl
  | cons t ts ih => rw [List.map_cons, List.flatten_cons, ih, List.flatten_cons, withReturns_append]

/-- With or without returns, one line end is dropped from the end of the code. -/
theorem joinCode_withReturns {code : List Text} (h : '\r' ∉ code.flatten) :
    joinCode (code.map Text.withReturns) = Text.withReturns (joinCode code) := by
  have hnone : dropEnding? "\r\n" code.flatten = none :=
    dropEnding?_of_notMem (c := '\r') (by decide) h
  rw [joinCode, joinCode, flatten_withReturns, hnone]
  rcases List.eq_nil_or_concat code.flatten with hnil | ⟨front, c, hc⟩
  · rw [hnil]
    rfl
  · rw [List.concat_eq_append] at hc
    by_cases hn : c = '\n'
    · subst hn
      have hreturn : dropEnding? "\r\n" (Text.withReturns (front ++ ['\n'])) =
          some (Text.withReturns front) := by
        rw [dropEnding?_eq_some, withReturns_append]
        rfl
      rw [hc, hreturn]
      exact congrArg Text.withReturns (dropEnding_append "\n" front).symm
    · have hlast : Text.withReturns (front ++ [c]) = Text.withReturns front ++ [c] := by
        rw [withReturns_append, withReturns_cons hn]
        rfl
      have hnone' : dropEnding? "\r\n" (Text.withReturns front ++ [c]) = none :=
        dropEnding?_concat "\r" hn _
      have hkeep : ∀ t, dropEnding "\n" (t ++ [c]) = t ++ [c] := by
        intro t
        rw [dropEnding]
        exact congrArg (Option.getD · _) (dropEnding?_concat [] hn t)
      rw [hc, hlast, hnone', hkeep, hkeep, hlast]

theorem panel_withReturns {c : Card} (h : '\r' ∉ c.code.flatten) :
    c.withReturns.panel = (c.panel.1.withReturns, c.panel.2) := by
  simp only [panel]
  rw [withReturns, joinCode_withReturns h, isBlank_withReturns]
  split
  · rfl
  · rw [gutter, newlines_withReturns, ← gutter]

/-- Who gets returns: all but line comments and clear marks. -/
def returning : Kind → Text → Text
  | .lineComment, t => t
  | .clear, t => t
  | _, t => t.withReturns

theorem revise_returning (c : Card) : c.revise returning id = c.withReturns := by
  have hline : c.lineComments.map (returning .lineComment) = c.lineComments := List.map_id _
  rw [revise, hline]
  rfl

theorem commentBody_returning (kind : Kind) (t : Text) :
    commentBody (returning kind t) = returning kind (commentBody t) := by
  cases kind with
  | lineComment => rfl
  | clear => rfl
  | code => exact commentBody_withReturns t
  | blockComment => exact commentBody_withReturns t
  | unknown number => exact commentBody_withReturns t

end Card

namespace Segment
open Text

section Scanned
variable {file text : Text} {segments : List Segment}

theorem content_withReturns_of_mem_scan {s : Segment} (h : scan file text = .ok segments)
    (hs : s ∈ segments) (hk : s.kind = .lineComment ∨ s.kind = .clear) :
    s.withReturns.content = s.content :=
  withReturns_of_notMem (newline_notMem_of_mem_scan h hs hk)

theorem revises_withReturns (h : scan file text = .ok segments) :
    List.Forall₂ (Revises Card.returning id) segments (segments.map withReturns) := by
  rw [List.forall₂_map_right_iff, List.forall₂_same]
  intro s hs
  refine ⟨rfl, ?_, rfl⟩
  have hsame := content_withReturns_of_mem_scan h hs
  cases hk : s.kind with
  | lineComment => exact hsame (.inl hk)
  | clear => exact hsame (.inr hk)
  | code => rfl
  | blockComment => rfl
  | unknown number => rfl

theorem gather_withReturns (h : scan file text = .ok segments) :
    Card.gather (segments.map withReturns) = (Card.gather segments).map Card.withReturns := by
  rw [Card.gather_revise Card.commentBody_returning rfl (revises_withReturns h)]
  exact List.map_congr_left fun c _ => Card.revise_returning c

theorem return_notMem_code (h : scan file text = .ok segments) (hr : '\r' ∉ text) {c : Card}
    (hc : c ∈ Card.gather segments) : '\r' ∉ c.code.flatten := by
  intro hmem
  obtain ⟨t, ht, hrt⟩ := List.mem_flatten.mp hmem
  have hcode : t ∈ (Card.gather segments).flatMap (·.code) := List.mem_flatMap.mpr ⟨c, hc, ht⟩
  rw [Card.flatMap_gather (p := isCode) (fun _ _ => rfl) (fun s hs => by simp [isKnown, hs]),
    List.mem_map] at hcode
  obtain ⟨s, hs, rfl⟩ := hcode
  rw [List.mem_filter] at hs
  exact hr (code_subset_of_mem_scan h hs.1 (by simpa [isCode] using hs.2) hrt)

theorem finishAll_withReturns (h : scan file text = .ok segments) (hr : '\r' ∉ text)
    {σ ε : Type} {press press' : Press (StateT σ (Except ε))} {a b a' b' : σ}
    {finished finished' : List FinishedCard}
    (hf : (Card.finishAll press (Card.gather segments)).run a = .ok (finished, b))
    (hf' : (Card.finishAll press' (Card.gather (segments.map withReturns))).run a' =
      .ok (finished', b')) :
    List.Forall₂ (fun f f' => f'.gutter = f.gutter ∧ f'.hasCode = f.hasCode ∧
      f'.code = f.code.withReturns) finished finished' := by
  have hcards : (Card.gather (segments.map withReturns)).map Card.panel =
      ((Card.gather segments).map Card.panel).map fun p => (p.1.withReturns, p.2) := by
    rw [gather_withReturns h, List.map_map, List.map_map]
    exact List.map_congr_left fun c hc => Card.panel_withReturns (return_notMem_code h hr hc)
  rw [← Card.finishAll_panels hf, ← Card.finishAll_panels hf', List.map_map,
    ← List.forall₂_eq_eq_eq, List.forall₂_map_left_iff, List.forall₂_map_right_iff] at hcards
  refine hcards.flip.imp ?_
  intro f f' hff
  obtain ⟨hcode, hgutter⟩ := Prod.mk.inj hff
  refine ⟨hgutter, ?_, hcode⟩
  rw [FinishedCard.hasCode, FinishedCard.hasCode, hcode, isEmpty_withReturns]

end Scanned

/-- Line endings do not matter. With returns in front of its line feeds a text fails with the same
error, or gives the same segments on the same lines: line comments and clear marks with the same
contents, all others with returns. The cards stand on the same lines, are closed alike and have the
same line comments; finished, by whatever presses, they show the same numbers and the code with
returns. -/
theorem scan_withReturns (file : Text) {text : Text} (h : '\r' ∉ text) :
    Corresponds Eq
      (fun segments segments' => segments' = segments.map withReturns ∧
        (∀ s ∈ segments, s.kind = .lineComment ∨ s.kind = .clear →
          s.withReturns.content = s.content) ∧
        Card.gather segments' = (Card.gather segments).map Card.withReturns ∧
        ∀ (σ ε : Type) (press press' : Press (StateT σ (Except ε))) (a b a' b' : σ)
          (finished finished' : List FinishedCard),
          (Card.finishAll press (Card.gather segments)).run a = .ok (finished, b) →
          (Card.finishAll press' (Card.gather segments')).run a' = .ok (finished', b') →
          List.Forall₂ (fun f f' => f'.gutter = f.gutter ∧ f'.hasCode = f.hasCode ∧
            f'.code = f.code.withReturns) finished finished')
      (scan file text) (scan file text.withReturns) := by
  rw [scan_withReturns_eq file h]
  cases hscan : scan file text with
  | error e => exact .error rfl
  | ok segments =>
      refine .ok ⟨rfl, ?_, gather_withReturns hscan, ?_⟩
      · exact fun s hs hk => content_withReturns_of_mem_scan hscan hs hk
      · intro σ ε press press' a b a' b' finished finished' hf hf'
        exact finishAll_withReturns hscan h hf hf'

/-- A line comment, code over two lines and a block comment over two lines. -/
theorem scan_withReturns_mixed :
    ∃ segments, scan "a.sol" "// a\nb\n\n/* c\n*/" = .ok segments ∧
      segments.map (fun s => (s.kind, s.line)) =
        [(.lineComment, 1), (.code, 2), (.blockComment, 4)] ∧
      scan "a.sol" (Text.withReturns "// a\nb\n\n/* c\n*/") = .ok (segments.map withReturns) ∧
      Card.gather (segments.map withReturns) = (Card.gather segments).map Card.withReturns := by
  have hplain : scan "a.sol" "// a\nb\n\n/* c\n*/" =
      .ok [{ kind := .lineComment, content := "a", line := 1, source := "// a\n" },
        { kind := .code, content := "b\n\n", line := 2, source := "b\n\n" },
        { kind := .blockComment, content := "c\n", line := 4, source := "/* c\n*/" }] := by
    with_unfolding_all rfl
  have hreturns := scan_withReturns "a.sol" (show '\r' ∉ ("// a\nb\n\n/* c\n*/" : Text) by decide)
  rw [hplain] at hreturns
  generalize hr : scan "a.sol" (Text.withReturns "// a\nb\n\n/* c\n*/") = r at hreturns
  cases hreturns with
  | ok hall =>
      obtain ⟨rfl, _, hcards, _⟩ := hall
      exact ⟨_, hplain, rfl, rfl, hcards⟩

end Segment

end Marginalia
