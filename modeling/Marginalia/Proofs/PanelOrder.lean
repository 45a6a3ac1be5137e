import Marginalia.Proofs.LineNumber
import Marginalia.Proofs.Panel

/-!
# Panels do not share lines

Where every return stands in front of a line feed, code that is followed by anything ends in a line
feed. For a comment opens at the start of a line, and the blanks in front of it belong to it. Hence
the lines beside the code of a card are above the lines beside the code of any later card.
-/
namespace Marginalia

/-- Every return is followed by a line feed. -/
def Text.Paired : Text → Prop
  | [] => True
  | c :: cs => (c = '\r' → cs.head? = some '\n') ∧ Paired cs

instance Text.decidablePaired : (t : Text) → Decidable t.Paired
  | [] => .isTrue trivial
  | c :: cs =>
    have : Decidable (Text.Paired cs) := decidablePaired cs
    inferInstanceAs (Decidable ((c = '\r' → cs.head? = some '\n') ∧ Text.Paired cs))

theorem Text.Paired.of_append {front behind : Text} (h : Text.Paired (front ++ behind)) :
    Text.Paired behind := by
  induction front with
  | nil => exact h
  | cons c front ih => exact ih h.2

namespace Segment

theorem Thinned.newlines_le {after source content : Text} (h : Thinned after source content) :
    Text.newlines content ≤ Text.newlines source := by
  induction h with
  | done => exact Nat.le_refl _
  | keep c _ ih =>
      rw [Text.newlines_cons, Text.newlines_cons]
      omega
  | drop _ _ ih =>
      rw [Text.newlines_append]
      omega

end Segment

namespace Card

theorem newlines_joinCode_le (t : Text) : Text.newlines (joinCode [t]) ≤ Text.newlines t := by
  obtain ⟨ending, ht, -⟩ := joinCode_singleton t
  have hlines := congrArg Text.newlines ht
  rw [Text.newlines_append] at hlines
  omega

theorem newlines_joinCode {t : Text} (h : t.getLast? = some '\n') :
    Text.newlines t = Text.newlines (joinCode [t]) + 1 := by
  obtain ⟨ending, ht, hend⟩ := joinCode_singleton t
  have hone : Text.newlines ending = 1 := by
    rcases hend with (rfl | rfl) | ⟨-, hlast⟩
    · rfl
    · rfl
    · exact absurd h hlast
  have hlines := congrArg Text.newlines ht
  rwa [Text.newlines_append, hone] at hlines

end Card

namespace Marker

/-- A horizontal space in front of an opener belongs to its margin. -/
theorem opens_margin_cons {marker t : Text} {c : Char} (hc : isHorizontal c)
    (h : Text.opens marker (t.drop (margin t))) :
    Text.opens marker ((c :: t).drop (margin (c :: t))) := by
  have hmargin : margin (c :: t) = margin t + 1 := by simp [margin, hc]
  rwa [hmargin, List.drop_succ_cons]

end Marker

namespace Scanner
open Marker Segment

/-- A comment of its own opens in front of the text. -/
def Opening (t : Text) : Prop := opensLine t ∨ opensBlock t

/-- In front of a comment of its own, whole lines are held. -/
def Linewise (s : Scanner) : Prop :=
  s.mode = .base → Opening s.rest → s.held = [] ∨ s.held.getLast? = some '\n'

section Linewise
variable {text t : Text} {n : Nat} {s s' : Scanner}

theorem not_opening_nil : ¬Opening [] := by
  rintro (h | h) <;> exact absurd h (by decide)

theorem not_opening_newline (h : t.head? = some '\n') : ¬Opening t := by
  obtain ⟨cs, rfl⟩ : ∃ cs, t = '\n' :: cs := by
    cases t with
    | nil => cases h
    | cons c cs =>
        cases h
        exact ⟨cs, rfl⟩
  have hstop : isStop '\n' := by decide
  rintro (ho | ho)
  · rw [← List.nil_append ('\n' :: cs), opensLine_append_stop hstop] at ho
    exact absurd ho (by decide)
  · rw [← List.nil_append ('\n' :: cs), opensBlock_append_stop hstop] at ho
    exact absurd ho (by decide)

/-- Code goes on at the start of a line: behind a line feed, at the end of the file, or behind a
space in front of which no comment opens. -/
theorem plan_keep_base {mode : Mode} (hm : mode.Outside)
    (hp : plan mode t = .go [.keep n, .enter .base]) :
    (t.take n).getLast? = some '\n' ∨ t.drop n = [] ∨
      ∃ c cs, t = c :: cs ∧ n = 1 ∧ isSpace c ∧ ¬Opening t := by
  have hne : t ≠ [] := by
    rintro rfl
    rcases hm with rfl | rfl <;> cases hp
  have hoff : ∀ {p : Plan}, planOutside t p = .go [.keep n, .enter .base] →
      p = .go [.keep n, .enter .base] := by
    intro p hp
    rw [planOutside_of_ne_nil hne] at hp
    split at hp
    · cases hp
    · exact hp
  rcases hm with rfl | rfl
  · have hbase := hoff hp
    unfold planBase at hbase
    split_ifs at hbase with hblock hline
    · cases hbase
    · cases planLineComment_cases hbase
    · next hspace =>
      cases hbase
      obtain ⟨c, cs, rfl⟩ := List.exists_cons_of_ne_nil hne
      exact .inr (.inr ⟨c, cs, rfl, rfl, hspace, by simp [Opening, hline, hblock]⟩)
    · cases hbase
  · have hcode := hoff hp
    unfold planCode at hcode
    split_ifs at hcode
    · split at hcode <;> cases hcode
    · cases hcode
      obtain ⟨ending, htake, rfl | ⟨-, hend⟩⟩ := take_wholeLine t
      · rw [htake]
        exact .inl List.getLast?_concat
      · exact .inr (.inl hend)
    · cases hcode
    · next hend =>
      cases hcode
      rcases (take_lineEnd t).resolve_left hend with hbreak | hbreak
      · exact .inl (by rw [hbreak]; rfl)
      · exact .inl (by rw [hbreak]; rfl)

theorem Linewise.keep (hr : Reaches (ofText text) s) (hpaired : text.Paired)
    (hm : s.mode.Outside) (hp : plan s.mode s.rest = .go [.keep n, .enter .base])
    (ho : Opening (s.rest.drop n)) : (s.rest.take n).getLast? = some '\n' := by
  rcases plan_keep_base hm hp with hlast | hnil | ⟨c, cs, hrest, rfl, hspace, hnot⟩
  · exact hlast
  · rw [hnil] at ho
    exact absurd ho not_opening_nil
  · rw [hrest] at ho hnot ⊢
    rw [List.drop_succ_cons, List.drop_zero] at ho
    by_cases hc : isHorizontal c
    · refine absurd ?_ hnot
      exact ho.imp (opens_margin_cons hc) (opens_margin_cons hc)
    · have hbreak : c = '\n' ∨ c = '\r' := by
        by_contra hnone
        rw [not_or] at hnone
        exact hc (by simp [isHorizontal, hspace, hnone])
      rcases hbreak with rfl | rfl
      · rfl
      · rw [← hr.passed_append, hrest] at hpaired
        exact absurd ho (not_opening_newline (hpaired.of_append.1 rfl))

theorem Linewise.step (h : Linewise s) (hr : Reaches (ofText text) s) (hpaired : text.Paired)
    (hstep : s.step = .next s') : Linewise s' := by
  obtain ⟨script, hgo, rfl⟩ := step_next_iff.mp hstep
  have hkeep : ∀ {n mode}, s.mode.Outside → script = [.keep n, .enter mode] →
      Linewise (s.perform script) := by
    rintro n mode hm rfl hbase ho
    obtain rfl : mode = .base := hbase
    right
    have hlast := Linewise.keep hr hpaired hm hgo (by simpa [apply] using ho)
    simp [apply, List.getLast?_append, hlast]
  have hblock : ∀ {r : Scanner} {indent}, Linewise (r.enter (.block indent)) := by
    intro r indent hb
    cases hb
  have hemit : ∀ {r : Scanner} {kind}, Linewise ((r.flush kind).enter .base) := by
    intro r kind _ _
    exact .inl (by simp)
  cases hm : s.mode with
  | base =>
      rw [hm] at hgo
      cases plan_base hgo with
      | keep _ _ _ => exact hkeep (.inl hm) rfl
      | openBlock _ _ => exact hblock
      | line hline =>
          cases hline with
          | drop hd => exact fun _ _ => h hm (.inl hd.opensLine)
          | clear _ => exact hemit
          | comment _ => exact hemit
  | code =>
      rw [hm] at hgo
      obtain ⟨n, mode, _, rfl⟩ := plan_code hgo
      exact hkeep (.inr hm) rfl
  | block indent =>
      rw [hm] at hgo
      rcases plan_block hgo with rfl | ⟨body, rfl⟩
      · exact hblock
      · exact hemit

theorem Reaches.linewise (h : Reaches (ofText text) s) (hpaired : text.Paired) : Linewise s :=
  h.invariant_of_step (fun _ _ => .inl rfl) fun hr hstep hs => hs.step hr hpaired hstep

end Linewise

section Lines
variable {text : Text} {p q : List Segment} {x y : Segment}

theorem source_ne_nil (h : (ofText text).run = .ok (p ++ x :: q)) (hp : p ≠ []) :
    x.source ≠ [] := by
  rcases run_anchored h with ⟨ahead, own, ha, -⟩ | ⟨hnil, -⟩
  · rw [ha.source_eq]
    simp [ha.own_ne_nil]
  · exact absurd hnil hp

/-- Code in front of another segment ends in a line feed. -/
theorem getLast?_content (h : (ofText text).run = .ok (p ++ x :: q)) (hpaired : text.Paired)
    (hk : x.kind = .code) (hq : q ≠ []) : x.content.getLast? = some '\n' := by
  rcases exists_emits h with ⟨s, tail, he, -, hrest, hx, -, htail⟩ | ⟨-, hnil, -⟩
  · rw [htail.resolve_left hq, List.nil_append] at hrest
    have hheld : x.content = s.held := by rw [hx]; rfl
    rw [hk] at he
    obtain ⟨hr, -, hne, ⟨hm, ho⟩ | hend⟩ := he.of_code
    · rw [hheld]
      exact (hr.linewise hpaired hm ho).resolve_left hne
    · obtain ⟨y, q, rfl⟩ := List.exists_cons_of_ne_nil hq
      have hy := source_ne_nil (p := p ++ [x]) (x := y) (q := q) (by simpa using h) (by simp)
      rw [hend, ← List.singleton_append, reassemble_append, reassemble_singleton] at hrest
      exact absurd (List.append_eq_nil_iff.mp hrest.symm).1 hy
  · exact absurd hnil hq

/-- The lines of a segment of code do not reach beyond its source. -/
theorem line_add_newlines_le (h : (ofText text).run = .ok (p ++ x :: q)) (hk : x.kind = .code) :
    x.line + Text.newlines x.content ≤ (1 + Text.newlines (reassemble (p ++ [x])) : Nat) := by
  rw [reassemble_append, reassemble_singleton, Text.newlines_append]
  rcases run_anchored h with ⟨ahead, own, ha, hline⟩ | ⟨rfl, -, -, -, hcontent, hline⟩
  · cases ha with
    | @code _ own content c _ hsource _ _ hcontent hthin =>
        have hle := hthin.newlines_le
        rw [hline, hsource, hcontent, Text.newlines_append, Text.newlines_append,
          Text.newlines_cons, Text.newlines_cons]
        omega
    | mark hmark _ _ _ _ _ =>
        rw [hk] at hmark
        simp at hmark
  · rw [hline, hcontent]
    have hnil : Text.newlines [] = 0 := rfl
    rw [hnil]
    omega

/-- The code of a segment ends above the line of every later segment. -/
theorem pairwise_lines {segments : List Segment} (h : (ofText text).run = .ok segments)
    (hpaired : text.Paired) :
    segments.Pairwise fun (x y : Segment) => x.kind = .code →
      x.line + Text.newlines (Card.joinCode [x.content]) < y.line := by
  refine pairwise_of_split fun a b c x y hsplit hk => ?_
  subst hsplit
  have hcode := Card.newlines_joinCode (getLast?_content h hpaired hk (by simp))
  have hx := line_add_newlines_le h hk
  have hy := (run_line_bounds (p := a ++ x :: b) (q := c) (by simpa using h)).1
  have hle := newlines_reassemble_le (show a ++ [x] <+: a ++ x :: b from ⟨b, by simp⟩)
  omega

end Lines

end Scanner

namespace Card
open Segment

/-- The last number beside the code of a card is smaller than the first one beside the code of any
later card, if every return of the file is followed by a line feed. -/
theorem finishAll_lines_increase {σ ε : Type} {press : Press (StateT σ (Except ε))} {a b : σ}
    {file text : Text} {segments : List Segment} {finished : List FinishedCard}
    (h : scan file text = .ok segments) (hpaired : text.Paired)
    (hfinish : (finishAll press (gather segments)).run a = .ok (finished, b)) :
    finished.Pairwise (fun (f g : FinishedCard) => f.hasCode → g.hasCode →
      f.startLine + Text.newlines f.code < g.startLine) ∧
    ∀ f ∈ finished, f.hasCode →
      (Text.splitAtChar '\n' f.gutter).getLast? =
        some (Text.ofInt (lineBelow f.startLine (Text.newlines f.code))) ∧
      (1 + Text.newlines text < 2 ^ 63 → lineBelow f.startLine (Text.newlines f.code) =
        f.startLine + Text.newlines f.code) := by
  rw [scan_eq_ok] at h
  constructor
  · have hcards := pairwise_shows h (Scanner.pairwise_lines h hpaired)
    have hshown : (finished.map fun f => (f.startLine, f.code, f.gutter)).Pairwise
        fun (u v : Int × Text × Text) => u.2.1 ≠ [] → v.2.1 ≠ [] →
          u.1 + Text.newlines u.2.1 < v.1 := by
      rw [finishAll_shown hfinish, List.pairwise_map]
      refine hcards.imp fun {c d} hcd hc hd => ?_
      obtain ⟨hc', hpanel⟩ := panel_eq hc
      obtain ⟨x, y, hx, hy, hlt⟩ := hcd hc' (panel_eq hd).1
      rw [hpanel, hx.code, hx.startLine, hy.startLine]
      exact hlt hx.kind
    rw [List.pairwise_map] at hshown
    refine hshown.imp fun {f g} hfg hf hg => hfg ?_ ?_
    · simpa [FinishedCard.hasCode] using hf
    · simpa [FinishedCard.hasCode] using hg
  · intro f hf hcode
    obtain ⟨x, hx, hk, hstart, hjoin, hgutter⟩ := exists_segment h hfinish hf hcode
    constructor
    · rw [hgutter, splitAtChar_gutter, List.range_succ, List.map_append]
      exact List.getLast?_concat
    · intro hsmall
      obtain ⟨p, q, rfl⟩ := List.append_of_mem hx
      have hline := (Scanner.run_line_bounds h).1
      have hle := Scanner.line_add_newlines_le h hk
      have hjoin' := newlines_joinCode_le x.content
      have hwhole := newlines_reassemble_le (show p ++ [x] <+: p ++ x :: q from ⟨q, by simp⟩)
      rw [show reassemble (p ++ x :: q) = text from Scanner.reassemble_run h] at hwhole
      rw [← hjoin] at hjoin'
      apply lineBelow_eq <;> omega

/-- Three cards: code, code on the line on which a block comment ends, and code behind a line
comment. -/
theorem finishAll_lines_increase_three :
    Text.Paired "a\r\n/* b */c\r\n//+ignore+\r\nd\r\n// e\r\nf" ∧
    ∃ (segments : List Segment) (finished : List FinishedCard),
      scan "a.sol" "a\r\n/* b */c\r\n//+ignore+\r\nd\r\n// e\r\nf" = .ok segments ∧
      (finishAll (m := StateT Unit (Except Unit)) ⟨pure, pure⟩ (gather segments)).run () =
        .ok (finished, ()) ∧
      finished.map (fun f => (f.startLine, f.gutter)) =
        [((1 : Int), ("1" : Text)), (2, ("2\n3" : Text)), (6, ("6" : Text))] ∧
      finished.Pairwise (fun (f g : FinishedCard) => f.hasCode → g.hasCode →
        f.startLine + Text.newlines f.code < g.startLine) := by
  have h : scan "a.sol" "a\r\n/* b */c\r\n//+ignore+\r\nd\r\n// e\r\nf" =
      .ok [{ kind := .code, content := "a\r\n", line := 1, source := "a\r\n" },
           { kind := .blockComment, content := "b ", line := 2, source := "/* b */" },
           { kind := .code, content := "c\r\nd\r\n", line := 2,
             source := "c\r\n//+ignore+\r\nd\r\n" },
           { kind := .lineComment, content := "e", line := 5, source := "// e\r\n" },
           { kind := .code, content := "f", line := 6, source := "f" }] := by
    with_unfolding_all rfl
  have hpaired : Text.Paired "a\r\n/* b */c\r\n//+ignore+\r\nd\r\n// e\r\nf" := by decide
  obtain ⟨segments, finished, h, hfinish, hshown⟩ :
      ∃ (segments : List Segment) (finished : List FinishedCard),
        scan "a.sol" "a\r\n/* b */c\r\n//+ignore+\r\nd\r\n// e\r\nf" = .ok segments ∧
        (finishAll (m := StateT Unit (Except Unit)) ⟨pure, pure⟩ (gather segments)).run () =
          .ok (finished, ()) ∧
        finished.map (fun f => (f.startLine, f.gutter)) =
          [((1 : Int), ("1" : Text)), (2, ("2\n3" : Text)), (6, ("6" : Text))] :=
    ⟨_, _, h, rfl, rfl⟩
  exact ⟨hpaired, segments, finished, h, hfinish, hshown,
    (finishAll_lines_increase h hpaired hfinish).1⟩

end Card

end Marginalia
