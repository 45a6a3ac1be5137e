import Marginalia.Proofs.Emission

/-!
# Line numbers of segments

The line of a segment is the line of its anchor. Code is anchored at its first kept character, a
comment or a clear mark at its opener. In front of the anchor there are the dropped lines that the
source starts with, and the margin of an opener.

The invariant is about the pending segment: nothing is pending but dropped lines, or code that
starts with its first kept character, or a block comment that starts with its opener.
-/
namespace Marginalia

namespace Marker

/-- A marker behind the margin is seen in every part of the text that reaches behind it. -/
theorem opens_margin_take {marker t : Text} {n : Nat} (hm : marker.length = 2)
    (h : Text.opens marker (t.drop (margin t))) (hn : margin t + 2 ≤ n) :
    Text.opens marker ((t.take n).drop (margin (t.take n))) := by
  have hlen := margin_add_two_le hm h
  have hsplit := List.take_append_drop n t
  refine opens_margin_of_append (y := t.drop n) (by rwa [hsplit]) ?_
  rw [hsplit, hm, List.length_take]
  omega

end Marker

namespace Segment
open Marker

/-- The opener of comments and clear marks. -/
def opener : Kind → Text
  | .blockComment => "/*"
  | _ => "//"

/-- The source of a segment in front of the text `after`, taken apart at the anchor: the part ahead
of it and the part that starts with it. -/
inductive Anchored (after : Text) (s : Segment) : Text → Text → Prop
  | code {ahead own content : Text} {c : Char} : s.kind = .code → s.source = ahead ++ c :: own →
      DroppedLines (c :: own ++ after) ahead → ¬Drops (c :: own ++ after) →
      s.content = c :: content → Thinned after own content → Anchored after s ahead (c :: own)
  | mark {lead margin own : Text} :
      s.kind = .lineComment ∨ s.kind = .blockComment ∨ s.kind = .clear →
      s.source = lead ++ margin ++ own → DroppedLines (margin ++ own ++ after) lead →
      ¬Drops (margin ++ own ++ after) → Blanks margin → Text.opens (opener s.kind) own →
      Anchored after s (lead ++ margin) own

theorem Anchored.source_eq {after ahead own : Text} {s : Segment}
    (h : Anchored after s ahead own) : s.source = ahead ++ own := by
  cases h with
  | code _ hs _ _ _ _ => exact hs
  | mark _ hs _ _ _ _ => exact hs

theorem Anchored.own_ne_nil {after ahead own : Text} {s : Segment}
    (h : Anchored after s ahead own) : own ≠ [] := by
  cases h with
  | code _ _ _ _ _ _ => exact List.cons_ne_nil _ _
  | mark _ _ _ _ _ ho =>
      rintro rfl
      have hnone : ∀ kind, Text.opens (opener kind) [] = false := by
        intro kind
        cases kind <;> rfl
      rw [hnone] at ho
      cases ho

end Segment

namespace Scanner
open Marker Segment

/-- What the pending segment looks like. -/
inductive Shape (s : Scanner) : Prop
  | idle : s.mode = .base → Idle s → Shape s
  | code {dropped own content : Text} {c : Char} : s.mode.Outside → Started s dropped (c :: own) →
      s.held = c :: content → Thinned s.rest own content → Shape s
  | block {indent : Nat} {dropped own : Text} : s.mode = .block indent → Started s dropped own →
      opensBlock own → Shape s

section Shape
variable {s t : Scanner}

theorem idle_flush {kind : Kind} (h : kind ≠ .code ∨ s.held ≠ []) : Idle (s.flush kind) := by
  rw [flush_eq h]
  exact ⟨rfl, rfl, .done⟩

theorem Shape.flush_code (h : Shape s) (hm : s.mode.Outside) : Idle (s.flush .code) := by
  cases h with
  | idle _ hi =>
      rw [flush_code_of_held_nil hi.held]
      exact ⟨hi.held, rfl, hi.dropped⟩
  | code _ _ hheld _ => exact idle_flush (.inr (by simp [hheld]))
  | block hb _ _ => exact absurd (hb ▸ hm) (Mode.not_outside_block _)

theorem Shape.emit {kind : Kind} (hk : kind ≠ .code) : Shape ((s.flush kind).enter .base) := by
  have hi := idle_flush (s := s) (.inl hk)
  exact .idle rfl ⟨hi.held, hi.start?, hi.dropped⟩

/-- Code goes on, or starts where nothing is dropped. -/
theorem Shape.keep (h : Shape s) (hc : Counted s) (hm : s.mode.Outside) {n : Nat} {mode : Mode}
    (hmode : mode.Outside) (hnew : s.mode = .base → ¬Drops s.rest ∧ s.rest.take n ≠ []) :
    Shape ((s.keep n).enter mode) := by
  cases h with
  | idle hb hi =>
      obtain ⟨hd, hn⟩ := hnew hb
      obtain ⟨c, own, htake⟩ := List.exists_cons_of_ne_nil hn
      have hs := (hi.keep hc hd hn).enter mode
      rw [htake] at hs
      have hheld : ((s.keep n).enter mode).held = c :: own := by simp [hi.held, htake]
      exact .code hmode hs hheld (.refl _ _)
  | @code dropped own content c _ hs hheld hthin =>
      have hheld' : ((s.keep n).enter mode).held = c :: (content ++ s.rest.take n) := by
        simp [hheld]
      refine .code hmode ((hs.keep n).enter mode) hheld' ?_
      simpa using hthin.advance (Thinned.refl (s.rest.drop n) (s.rest.take n))
  | block hb _ _ => exact absurd (hb ▸ hm) (Mode.not_outside_block _)

theorem Shape.drop (h : Shape s) (hm : s.mode = .base) (hd : Drops s.rest) :
    Shape ((s.skip (wholeLine s.rest)).enter .base) := by
  have hline := (droppedLine_take hd).thinned
  cases h with
  | idle _ hi =>
      refine .idle rfl ⟨hi.held, hi.start?, ?_⟩
      simpa [DroppedLines] using hi.dropped.advance hline
  | code _ hs hheld hthin =>
      refine .code (.inl rfl) ((hs.skip _).enter .base) hheld ?_
      simpa using hthin.advance hline
  | block hb _ _ =>
      rw [hm] at hb
      cases hb

theorem Shape.openBlock (h : Shape s) (hc : Counted s) (hm : s.mode = .base)
    (ho : opensBlock s.rest) (hd : ¬Drops s.rest) : Shape (s.perform (openScript s.rest)) := by
  have hi := h.flush_code (.inl hm)
  have hs := hi.begin (hc.apply (.flush .code)) (by simpa using hd)
  refine .block rfl ((hs.skip (margin s.rest + 2)).enter _) ?_
  rw [List.nil_append, begin_rest, flush_rest]
  exact opens_margin_take rfl ho (Nat.le_refl _)

theorem Shape.step (h : Shape s) (hc : Counted s) (hstep : s.step = .next t) : Shape t := by
  obtain ⟨script, hgo, rfl⟩ := step_next_iff.mp hstep
  cases hm : s.mode with
  | base =>
      rw [hm] at hgo
      have hne : s.rest ≠ [] := by
        intro hr
        rw [hr] at hgo
        cases hgo
      cases plan_base hgo with
      | keep hn hmode hd =>
          refine h.keep hc (.inl hm) hmode fun _ => ⟨hd, ?_⟩
          simp only [ne_eq, List.take_eq_nil_iff, not_or]
          exact ⟨Nat.ne_of_gt hn, hne⟩
      | openBlock ho hd => exact h.openBlock hc hm ho hd
      | line hline =>
          cases hline with
          | drop hd => exact h.drop hm hd
          | clear _ => exact Shape.emit (by decide)
          | comment _ => exact Shape.emit (by decide)
  | code =>
      rw [hm] at hgo
      obtain ⟨n, mode, hmode, rfl⟩ := plan_code hgo
      refine h.keep hc (.inr hm) hmode fun hb => ?_
      rw [hm] at hb
      cases hb
  | block indent =>
      rw [hm] at hgo
      rcases plan_block hgo with rfl | ⟨body, rfl⟩
      · cases h with
        | idle hb _ =>
            rw [hm] at hb
            cases hb
        | code hb _ _ _ => exact absurd (hm ▸ hb) (Mode.not_outside_block _)
        | block _ hs ho =>
            exact .block rfl ((hs.perform [.skip _, .keep _] (by simp [Op.Moves])).enter _)
              (opens_margin_append (by decide) ho _)
      · exact Shape.emit (by decide)

theorem Reaches.shape {text : Text} (h : Reaches (ofText text) s) : Shape s := by
  refine h.invariant_of_step (.idle rfl ⟨rfl, rfl, .done⟩) fun hr hstep hs => ?_
  exact hs.step (hr.dated (.ofText text)).counted hstep

end Shape

section Anchor
variable {text dropped own after tail : Text} {s : Scanner} {x : Segment}

/-- An opener behind the dropped lines is the anchor of a comment or a clear mark. -/
theorem Started.anchored_mark (h : Started s dropped own)
    (hk : x.kind = .lineComment ∨ x.kind = .blockComment ∨ x.kind = .clear)
    (ho : Text.opens (opener x.kind) (own.drop (margin own))) (hrest : s.rest = tail ++ after)
    (hx : x = (s.pending x.kind).extend tail) :
    ∃ ahead own, Anchored after x ahead own ∧
      x.line = (1 + Text.newlines (reassemble s.segments.reverse ++ ahead) : Nat) := by
  have hown : own.take (margin own) ++ (own.drop (margin own) ++ tail) ++ after =
      own ++ s.rest := by
    rw [← List.append_assoc, List.take_append_drop, hrest, List.append_assoc]
  have hsource : x.source =
      dropped ++ own.take (margin own) ++ (own.drop (margin own) ++ tail) := by
    rw [List.append_assoc, ← List.append_assoc (own.take _), List.take_append_drop,
      ← List.append_assoc, ← h.spent_eq, hx]
    rfl
  have hblanks := blanks_take_margin own
  refine ⟨_, _, .mark hk hsource ?_ ?_ hblanks (Text.opens_append ho tail), ?_⟩
  · rw [hown]
    exact h.lines
  · rw [hown]
    exact h.kept
  · rw [← List.append_assoc, Text.newlines_append (_ ++ dropped), hblanks.newlines_eq, hx]
    simp [extend, pending, h.start_eq]

/-- Code is anchored at its first kept character. -/
theorem Shape.anchored_code (h : Shape s) (hm : s.mode.Outside) (hheld : s.held ≠ [])
    (hrest : s.rest = tail ++ after) (htail : DroppedLines after tail) (hk : x.kind = .code)
    (hx : x = (s.pending x.kind).extend tail) :
    ∃ ahead own, Anchored after x ahead own ∧
      x.line = (1 + Text.newlines (reassemble s.segments.reverse ++ ahead) : Nat) := by
  cases h with
  | idle _ hi => exact absurd hi.held hheld
  | @code dropped own content c _ hs hcontent hthin =>
      have hown : c :: (own ++ tail) ++ after = c :: own ++ s.rest := by
        rw [hrest]
        simp
      have hx' : x.content = c :: content := by rw [hx, ← hcontent]; rfl
      refine ⟨dropped, c :: (own ++ tail), .code hk ?_ ?_ ?_ hx' ?_, ?_⟩
      · rw [hx]
        simp [extend, pending, hs.spent_eq]
      · rw [hown]
        exact hs.lines
      · rw [hown]
        exact hs.kept
      · rw [hrest] at hthin
        simpa using hthin.append htail
      · rw [hx]
        simp [extend, pending, hs.start_eq]
  | block hb _ _ => exact absurd (hb ▸ hm) (Mode.not_outside_block _)

/-- Whatever is emitted has the line of its anchor. -/
theorem Emits.anchored (h : Emits text x.kind s) (hrest : s.rest = tail ++ after)
    (htail : DroppedLines after tail)
    (hx : x = (s.pending x.kind).extend tail) :
    ∃ ahead own, Anchored after x ahead own ∧
      x.line = (1 + Text.newlines (reassemble s.segments.reverse ++ ahead) : Nat) := by
  generalize hkind : x.kind = kind at h
  cases h with
  | code hr hm _ hheld =>
      exact hr.shape.anchored_code (.inl hm) hheld hrest htail hkind hx
  | final hr hm _ hheld => exact hr.shape.anchored_code hm hheld hrest htail hkind hx
  | @line r _ moves hr hm ho hd hk hmoves hext =>
      have hi := hr.shape.flush_code (.inl hm)
      have hc := (hr.dated (.ofText text)).counted.apply (.flush .code)
      have hs := hi.begin hc (by simpa using hd)
      have hs' := hs.perform moves hmoves
      have hopener : opener kind = "//" := by rcases hk with rfl | rfl <;> rfl
      refine hs'.anchored_mark ?_ ?_ hrest hx
      · rw [hkind]
        rcases hk with rfl | rfl <;> simp
      · rw [hkind, hopener, List.nil_append, begin_rest, flush_rest]
        exact opens_margin_take rfl ho hext
  | @block r indent moves hr hm hmoves =>
      cases hr.shape with
      | idle hb _ =>
          rw [hm] at hb
          cases hb
      | code hb _ _ _ => exact absurd (hm ▸ hb) (Mode.not_outside_block _)
      | block _ hs ho =>
          refine (hs.perform moves hmoves).anchored_mark ?_ ?_ hrest hx
          · simp [hkind]
          · rw [hkind]
            exact opens_margin_append (by decide) ho _

theorem run_anchored {p q : List Segment} (h : (ofText text).run = .ok (p ++ x :: q)) :
    (∃ ahead own, Anchored (reassemble q) x ahead own ∧
      x.line = (1 + Text.newlines (reassemble p ++ ahead) : Nat)) ∨
    p = [] ∧ q = [] ∧ DroppedLines [] text ∧ x.kind = .code ∧ x.content = [] ∧ x.line = 1 := by
  rcases exists_emits h with ⟨s, tail, he, hs, hrest, hx, htail, -⟩ | ⟨hp, hq, hd, rfl⟩
  · have hanchored := he.anchored hrest htail hx
    rw [hs, List.reverse_reverse] at hanchored
    exact .inl hanchored
  · exact .inr ⟨hp, hq, hd, rfl, rfl, rfl⟩

/-- The line of a segment lies between the lines on which its source starts and ends. -/
theorem run_line_bounds {p q : List Segment} (h : (ofText text).run = .ok (p ++ x :: q)) :
    (1 + Text.newlines (reassemble p) : Nat) ≤ x.line ∧
      x.line ≤ (1 + Text.newlines (reassemble (p ++ [x])) : Nat) := by
  rw [reassemble_append, reassemble_singleton, Text.newlines_append]
  rcases run_anchored h with ⟨ahead, own, ha, hline⟩ | ⟨rfl, -, -, -, -, hline⟩
  · rw [hline, ha.source_eq, Text.newlines_append, Text.newlines_append]
    omega
  · have hnil : Text.newlines (reassemble []) = 0 := rfl
    rw [hline, hnil]
    omega

end Anchor

end Scanner

namespace Segment

theorem newlines_reassemble_le {a b : List Segment} (h : a <+: b) :
    Text.newlines (reassemble a) ≤ Text.newlines (reassemble b) := by
  obtain ⟨c, rfl⟩ := h
  rw [reassemble_append, Text.newlines_append]
  omega

theorem pairwise_of_split {R : Segment → Segment → Prop} {segments : List Segment}
    (h : ∀ a b c x y, segments = a ++ x :: (b ++ y :: c) → R x y) : segments.Pairwise R := by
  rw [List.pairwise_iff_forall_sublist]
  intro x y hxy
  obtain ⟨front, back, rfl, hx, hy⟩ := List.cons_sublist_iff.mp hxy
  obtain ⟨a, b, rfl⟩ := List.append_of_mem hx
  obtain ⟨b', c, rfl⟩ := List.append_of_mem (List.singleton_sublist.mp hy)
  exact h a (b ++ b') c x y (by simp)

/-- The line of every segment is the line of its anchor; only a file that holds nothing but dropped
lines has a segment without one, on line one. So the lines do not decrease along the file, and none
of them is behind its last line. -/
theorem scan_line_anchor {file text : Text} {segments : List Segment}
    (h : scan file text = .ok segments) :
    (∀ before s after, segments = before ++ s :: after →
      (∃ ahead own, Anchored (reassemble after) s ahead own ∧
        text = reassemble before ++ ahead ++ (own ++ reassemble after) ∧
        s.line = (1 + Text.newlines (reassemble before ++ ahead) : Nat)) ∨
      before = [] ∧ after = [] ∧ DroppedLines [] text ∧ s.kind = .code ∧ s.content = [] ∧
        s.line = 1) ∧
    segments.Pairwise (fun s t => s.line ≤ t.line) ∧
    ∀ s ∈ segments, s.line ≤ (1 + Text.newlines text : Nat) := by
  rw [scan_eq_ok] at h
  have htext : reassemble segments = text := Scanner.reassemble_run h
  refine ⟨?_, ?_, ?_⟩
  · rintro before s after rfl
    refine (Scanner.run_anchored h).imp_left ?_
    rintro ⟨ahead, own, ha, hline⟩
    refine ⟨ahead, own, ha, ?_, hline⟩
    rw [← htext]
    simp [reassemble, ha.source_eq]
  · refine pairwise_of_split fun a b c s t hsplit => ?_
    subst hsplit
    have hs := (Scanner.run_line_bounds h).2
    have ht := (Scanner.run_line_bounds (p := a ++ s :: b) (q := c) (by simpa using h)).1
    have hle := newlines_reassemble_le (show a ++ [s] <+: a ++ s :: b from ⟨b, by simp⟩)
    omega
  · intro s hs
    obtain ⟨a, b, rfl⟩ := List.append_of_mem hs
    have hs := (Scanner.run_line_bounds h).2
    have hle := newlines_reassemble_le (show a ++ [s] <+: a ++ s :: b from ⟨b, by simp⟩)
    rw [htext] at hle
    omega

/-- Code behind one dropped line and around another, and a block comment that starts on the line
behind it. -/
theorem scan_line_anchor_mixed :
    ∃ code note remark : Segment,
      scan "a.sol" "//+ignore+\na\n//+ignore+\nb\n  /* c\n*/ // d" = .ok [code, note, remark] ∧
      [code, note, remark].map (·.line) = [2, 5, 6] ∧
      (∃ ahead own, Anchored (reassemble [remark]) note ahead own ∧
        note.line = (1 + Text.newlines (reassemble [code] ++ ahead) : Nat)) ∧
      [code, note, remark].Pairwise (fun s t => s.line ≤ t.line) := by
  have h : scan "a.sol" "//+ignore+\na\n//+ignore+\nb\n  /* c\n*/ // d" =
      .ok [{ kind := .code, content := "a\nb\n", line := 2,
             source := "//+ignore+\na\n//+ignore+\nb\n" },
           { kind := .blockComment, content := "c\n", line := 5, source := "  /* c\n*/" },
           { kind := .lineComment, content := "d", line := 6, source := " // d" }] := by
    with_unfolding_all rfl
  obtain ⟨hanchored, hsorted, -⟩ := scan_line_anchor h
  refine ⟨_, _, _, h, rfl, ?_, hsorted⟩
  obtain ⟨ahead, own, ha, -, hline⟩ :=
    (hanchored [_] _ [_] rfl).resolve_right fun hnone => by cases hnone.1
  exact ⟨ahead, own, ha, hline⟩

end Segment

end Marginalia
