import Marginalia.Proofs.LineNumber
import Marginalia.Proofs.Panel

/-!
# The numbers beside the code

A kept character is read by a step that stands at a place of the file. The number beside it counts
the lines of the code from the line of its first character on. It is the line of that place, less
the lines that were dropped in between.
-/
namespace Marginalia

namespace Segment
open Marker

/-- A source, and what is left of it when some number of dropped lines is taken out. -/
inductive Culled : Nat → Text → Text → Prop
  | done : Culled 0 [] []
  | keep (c : Char) {d : Nat} {source content : Text} : Culled d source content →
      Culled d (c :: source) (c :: content)
  | drop {d : Nat} {line source content : Text} : Drops line → '\n' ∉ line →
      Culled d source content → Culled (d + 1) (line ++ '\n' :: source) content

theorem Culled.refl (t : Text) : Culled 0 t t := by
  induction t with
  | nil => exact .done
  | cons c cs ih => exact .keep c ih

theorem Culled.append_right {d : Nat} {source content : Text} (h : Culled d source content)
    (t : Text) : Culled d (source ++ t) (content ++ t) := by
  induction h with
  | done => exact .refl t
  | keep c _ ih => exact .keep c ih
  | drop hd hfree _ ih =>
      rw [List.append_assoc]
      exact .drop hd hfree ih

theorem Culled.newlines_eq {d : Nat} {source content : Text} (h : Culled d source content) :
    Text.newlines source = Text.newlines content + d := by
  induction h with
  | done => rfl
  | keep c _ ih =>
      rw [Text.newlines_cons, Text.newlines_cons, ih]
      omega
  | @drop d line source content _ hfree _ ih =>
      have hline : Text.newlines line = 0 := List.count_eq_zero.mpr hfree
      rw [Text.newlines_append, Text.newlines_cons, if_pos rfl, hline, ih]
      omega

/-- In front of more text every dropped line has its line feed. -/
theorem Thinned.exists_culled {after source content : Text} (h : Thinned after source content)
    (ha : after ≠ []) : ∃ d, Culled d source content := by
  induction h with
  | done => exact ⟨0, .done⟩
  | keep c _ ih =>
      obtain ⟨d, hd⟩ := ih
      exact ⟨d, .keep c hd⟩
  | @drop line source content hline _ ih =>
      obtain ⟨d, hd⟩ := ih
      obtain ⟨opening, words, ending, ho, hfree, hend, rfl⟩ := hline.exists_opening
      obtain rfl := hend.resolve_right fun hnil => ha (List.append_eq_nil_iff.mp hnil.2).2
      refine ⟨d + 1, ?_⟩
      rw [List.append_assoc]
      exact .drop (ho.drops words) hfree hd

end Segment

namespace Scanner
open Marker Segment

/-- The character number `i` of the content of a segment behind other ones, and the text in front of
the place where a step of the run reads it. -/
inductive ReadsAt (text : Text) (before : List Segment) (content : Text) : Nat → Text → Prop
  | keep {r : Scanner} {n j : Nat} {mode : Mode} : Reaches (ofText text) r →
      r.segments.reverse = before → plan r.mode r.rest = .go [.keep n, .enter mode] →
      j < (r.rest.take n).length → r.held ++ r.rest.take n <+: content →
      ReadsAt text before content (r.held.length + j) (r.passed ++ r.rest.take j)

/-- A character of a content that starts on some line is read behind `d` dropped lines. -/
structure ReadBelow (text : Text) (before : List Segment) (content : Text) (line i d : Nat)
    (front : Text) : Prop where
  readsAt : ReadsAt text before content i front
  culled : ∃ ahead between, front = ahead ++ between ∧ line = 1 + Text.newlines ahead ∧
    Culled d between (content.take i) ∧ between.head? = (content.take i).head?

section Reading
variable {text content content' front : Text} {before : List Segment} {line i d n : Nat}
variable {s t : Scanner} {mode : Mode}

theorem ReadsAt.mono (h : ReadsAt text before content i front) (hpre : content <+: content') :
    ReadsAt text before content' i front := by
  cases h with
  | keep hr hseg hp hj hc => exact .keep hr hseg hp hj (hc.trans hpre)

theorem ReadsAt.lt_length (h : ReadsAt text before content i front) : i < content.length := by
  cases h with
  | keep _ _ _ hj hc =>
      have hlen := hc.length_le
      rw [List.length_append] at hlen
      omega

/-- The character that is read is the one of the content. -/
theorem ReadsAt.text_eq (h : ReadsAt text before content i front) :
    ∃ c behind, text = front ++ c :: behind ∧ content[i]? = some c := by
  cases h with
  | @keep r n j mode hr _ _ hj hc =>
      have hlen : j < r.rest.length := lt_of_lt_of_le hj (List.length_take_le' n r.rest)
      have hsplit : r.rest = r.rest.take j ++ r.rest[j] :: r.rest.drop (j + 1) := by
        rw [← List.drop_eq_getElem_cons, List.take_append_drop]
      refine ⟨r.rest[j], r.rest.drop (j + 1), ?_, ?_⟩
      · rw [List.append_assoc, ← hsplit, hr.passed_append]
      · obtain ⟨more, rfl⟩ := hc
        rw [List.append_assoc, List.getElem?_append_right (Nat.le_add_right _ _),
          Nat.add_sub_cancel_left, List.getElem?_append_left hj, List.getElem?_take_of_lt,
          List.getElem?_eq_getElem hlen]
        rw [List.length_take] at hj
        omega

theorem ReadBelow.line_eq (h : ReadBelow text before content line i d front) :
    1 + Text.newlines front = line + Text.newlines (content.take i) + d := by
  obtain ⟨ahead, between, rfl, rfl, hculled, -⟩ := h.culled
  rw [Text.newlines_append, hculled.newlines_eq]
  omega

theorem ReadBelow.mono (h : ReadBelow text before content line i d front)
    (hpre : content <+: content') : ReadBelow text before content' line i d front := by
  obtain ⟨more, rfl⟩ := hpre
  have htake : (content ++ more).take i = content.take i :=
    List.take_append_of_le_length h.readsAt.lt_length.le
  refine ⟨h.readsAt.mono (List.prefix_append _ _), ?_⟩
  rw [htake]
  exact h.culled

/-- Between the first character of the code and any place in front of which nothing more is
dropped, there is what is held and some number of dropped lines. -/
theorem Reaches.exists_culled (hr : Reaches (ofText text) s) (hm : s.mode.Outside)
    (hrest : s.rest ≠ []) (j : Nat) :
    ∃ line d ahead between, s.start?.getD s.line = line ∧
      s.passed ++ s.rest.take j = ahead ++ between ∧ line = 1 + Text.newlines ahead ∧
      Culled d between (s.held ++ s.rest.take j) ∧
      between.head? = (s.held ++ s.rest.take j).head? := by
  have hcount := (hr.dated (.ofText text)).counted
  cases hr.shape with
  | idle _ hi =>
      refine ⟨_, 0, s.passed, s.rest.take j, rfl, rfl, ?_, ?_, ?_⟩
      · rw [hi.start?]
        exact hcount
      · rw [hi.held]
        exact .refl _
      · rw [hi.held]
        rfl
  | @code dropped own content c _ hs hheld hthin =>
      obtain ⟨d, hd⟩ := hthin.exists_culled hrest
      refine ⟨_, d, reassemble s.segments.reverse ++ dropped, c :: (own ++ s.rest.take j), rfl, ?_,
        ?_, ?_, ?_⟩
      · rw [passed, hs.spent_eq]
        simp
      · rw [hs.start_eq]
        rfl
      · rw [hheld]
        exact .keep c (hd.append_right _)
      · rw [hheld]
        rfl
  | block hb _ _ => exact absurd (hb ▸ hm) (Mode.not_outside_block _)

/-- Every character that is held outside block comments was read by a step. -/
def Sourced (text : Text) (s : Scanner) : Prop :=
  s.mode.Outside → ∀ i < s.held.length, ∃ line d front, s.start? = some line ∧
    ReadBelow text s.segments.reverse s.held line i d front

theorem Sourced.keep (h : Sourced text s) (hr : Reaches (ofText text) s) (hm : s.mode.Outside)
    (hp : plan s.mode s.rest = .go [.keep n, .enter mode]) :
    Sourced text ((s.keep n).enter mode) := by
  intro _ i hi
  rw [enter_held, keep_held] at hi ⊢
  rw [enter_start?, enter_segments, keep_segments, keep_start?]
  by_cases hold : i < s.held.length
  · obtain ⟨line, d, front, hstart, hread⟩ := h hm i hold
    refine ⟨line, d, front, ?_, hread.mono (List.prefix_append _ _)⟩
    rw [hstart]
    split <;> rfl
  · obtain ⟨j, rfl⟩ := Nat.exists_eq_add_of_le (Nat.le_of_not_lt hold)
    rw [List.length_append] at hi
    have hj : j < (s.rest.take n).length := by omega
    have htake : s.rest.take n ≠ [] := List.ne_nil_of_length_pos (by omega)
    rw [if_neg htake]
    have hrest : s.rest ≠ [] := fun hnil => htake (by rw [hnil, List.take_nil])
    obtain ⟨line, d, ahead, between, hstart, hfront, hline, hculled, hhead⟩ :=
      hr.exists_culled hm hrest j
    have hcontent : (s.held ++ s.rest.take n).take (s.held.length + j) =
        s.held ++ s.rest.take j := by
      rw [List.take_length_add_append, List.take_take, Nat.min_eq_left]
      rw [List.length_take] at hj
      omega
    refine ⟨line, d, _, congrArg some hstart, .keep hr rfl hp hj (List.prefix_refl _),
      ahead, between, hfront, hline, ?_⟩
    rw [hcontent]
    exact ⟨hculled, hhead⟩

theorem Sourced.step (h : Sourced text s) (hr : Reaches (ofText text) s)
    (hstep : s.step = .next t) : Sourced text t := by
  obtain ⟨script, hgo, rfl⟩ := step_next_iff.mp hstep
  have hblock : ∀ {r : Scanner} {indent}, Sourced text (r.enter (.block indent)) := by
    exact fun hb => absurd hb (Mode.not_outside_block _)
  have hemit : ∀ {r : Scanner} {kind}, Sourced text ((r.flush kind).enter .base) := by
    intro r kind _ i hi
    simp at hi
  cases hm : s.mode with
  | base =>
      have hgo' := hgo
      rw [hm] at hgo'
      cases plan_base hgo' with
      | keep _ _ _ => exact h.keep hr (.inl hm) hgo
      | openBlock _ _ => exact hblock
      | line hline =>
          cases hline with
          | drop _ => exact fun _ => h (.inl hm)
          | clear _ => exact hemit
          | comment _ => exact hemit
  | code =>
      have hgo' := hgo
      rw [hm] at hgo'
      obtain ⟨n, mode, _, rfl⟩ := plan_code hgo'
      exact h.keep hr (.inr hm) hgo
  | block indent =>
      rw [hm] at hgo
      rcases plan_block hgo with rfl | ⟨body, rfl⟩
      · exact hblock
      · exact hemit

theorem Reaches.sourced (h : Reaches (ofText text) s) : Sourced text s :=
  h.invariant_of_step (fun _ _ hi => by cases hi) fun hr hstep hs => hs.step hr hstep

/-- Every character of a segment of code was read by a step of the run. -/
theorem exists_readBelow {p q : List Segment} {x : Segment}
    (h : (ofText text).run = .ok (p ++ x :: q)) (hk : x.kind = .code) (hi : i < x.content.length) :
    ∃ line d front, x.line = (line : Nat) ∧ ReadBelow text p x.content line i d front := by
  rcases exists_emits h with ⟨s, tail, he, hs, -, hx, -⟩ | ⟨-, -, -, rfl⟩
  · have hheld : x.content = s.held := by rw [hx]; rfl
    have hline : x.line = (s.start?.getD s.line : Nat) := by rw [hx]; rfl
    rw [hheld] at hi ⊢
    rw [hk] at he
    obtain ⟨hr, hm, -, -⟩ := he.of_code
    obtain ⟨line, d, front, hstart, hread⟩ := hr.sourced hm i hi
    rw [hs, List.reverse_reverse] at hread
    exact ⟨line, d, front, by rw [hline, hstart]; rfl, hread⟩
  · cases hi

end Reading

end Scanner

namespace Text

theorem length_splitAtChar (sep : Char) (t : Text) :
    (splitAtChar sep t).length = t.count sep + 1 := by
  induction t with
  | nil => rfl
  | cons c cs ih =>
      rw [splitAtChar, List.count_cons]
      split
      · next hc => simp [hc, ih]
      · next hc =>
        cases hs : splitAtChar sep cs with
        | nil =>
            rw [hs] at ih
            cases ih
        | cons piece pieces =>
            rw [hs] at ih
            simpa [hc] using ih

theorem head?_splitAtChar (t : Text) : (splitAtChar '\n' t).head? = some (firstLine t) := by
  induction t with
  | nil => rfl
  | cons c cs ih =>
      rw [splitAtChar, firstLine]
      split
      · next hc => simp [hc]
      · next hc =>
        cases hs : splitAtChar '\n' cs with
        | nil =>
            rw [hs] at ih
            cases ih
        | cons piece pieces =>
            rw [hs] at ih
            cases ih
            simp [hc, firstLine]

/-- Where a line of a text starts. -/
theorem exists_line_start {t : Text} {k : Nat} (hk : k ≤ newlines t) :
    ∃ i ≤ t.length, newlines (t.take i) = k ∧ (i = 0 ∨ (t.take i).getLast? = some '\n') ∧
      (splitAtChar '\n' t)[k]? = some (firstLine (t.drop i)) := by
  induction t generalizing k with
  | nil =>
      obtain rfl : k = 0 := Nat.le_zero.mp hk
      exact ⟨0, Nat.le_refl 0, rfl, .inl rfl, rfl⟩
  | cons c cs ih =>
      cases k with
      | zero =>
          refine ⟨0, Nat.zero_le _, rfl, .inl rfl, ?_⟩
          rw [← List.head?_eq_getElem?, head?_splitAtChar, List.drop_zero]
      | succ k =>
          by_cases hc : c = '\n'
          · subst hc
            rw [newlines_cons, if_pos rfl] at hk
            obtain ⟨i, hi, hlines, hstart, hline⟩ := ih (Nat.le_of_succ_le_succ hk)
            refine ⟨i + 1, Nat.succ_le_succ hi, ?_, .inr ?_, ?_⟩
            · rw [List.take_succ_cons, newlines_cons, if_pos rfl, hlines]
            · rw [List.take_succ_cons, List.getLast?_cons]
              rcases hstart with rfl | hstart
              · rfl
              · rw [hstart]
                rfl
            · rw [splitAtChar, if_pos rfl, List.getElem?_cons_succ, hline, List.drop_succ_cons]
          · rw [newlines_cons, if_neg hc] at hk
            obtain ⟨i, hi, hlines, hstart, hline⟩ := ih hk
            refine ⟨i + 1, Nat.succ_le_succ hi, ?_, .inr ?_, ?_⟩
            · rw [List.take_succ_cons, newlines_cons, if_neg hc, hlines]
            · rcases hstart with rfl | hstart
              · cases hlines
              · rw [List.take_succ_cons, List.getLast?_cons, hstart]
                rfl
            · rw [splitAtChar, if_neg hc, List.drop_succ_cons, ← hline]
              cases splitAtChar '\n' cs <;> simp

end Text

namespace Card
open Segment Scanner

/-- Every line of the code of a segment starts with a character of its content, be it the last line
end, which the panel does not show. -/
theorem exists_content_line {content : Text} {k : Nat} (hne : joinCode [content] ≠ [])
    (hk : k ≤ Text.newlines (joinCode [content])) :
    ∃ i < content.length, Text.newlines (content.take i) = k ∧
      (Text.splitAtChar '\n' (joinCode [content]))[k]? =
        some (Text.firstLine ((joinCode [content]).drop i)) := by
  obtain ⟨ending, hcontent, hend⟩ := joinCode_singleton content
  generalize joinCode [content] = code at *
  subst hcontent
  obtain ⟨i, hi, hlines, hstart, hline⟩ := Text.exists_line_start hk
  refine ⟨i, ?_, by rw [List.take_append_of_le_length hi, hlines], hline⟩
  rw [List.length_append]
  rcases hend with (rfl | rfl) | ⟨rfl, hlast⟩
  · rw [List.length_singleton]
    omega
  · rw [List.length_cons, List.length_singleton]
    omega
  · refine lt_of_le_of_ne hi fun hfull => ?_
    rw [List.append_nil] at hlast
    rw [List.length_nil, Nat.add_zero] at hfull
    rcases hstart with hzero | hstart
    · exact hne (List.eq_nil_of_length_eq_zero (hfull.symm.trans hzero))
    · rw [hfull, List.take_length] at hstart
      exact hlast hstart

/-- The number beside a line of code is the line from which a character of it was read, less the
lines that were dropped between the first character of the code and that one. As long as the lines
of the file can be counted in a word of 64 bits, no number is wrapped around. -/
theorem finishAll_gutter_line {σ ε : Type} {press : Press (StateT σ (Except ε))} {a b : σ}
    {file text : Text} {segments : List Segment} {finished : List FinishedCard}
    {f : FinishedCard} (h : scan file text = .ok segments)
    (hfinish : (finishAll press (gather segments)).run a = .ok (finished, b)) (hf : f ∈ finished)
    (hcode : f.hasCode) :
    ∃ before x after, segments = before ++ x :: after ∧ x.kind = .code ∧ f.startLine = x.line ∧
      f.code = joinCode [x.content] ∧
      ∀ k < (Text.splitAtChar '\n' f.code).length,
        (Text.splitAtChar '\n' f.gutter)[k]? = some (Text.ofInt (lineBelow f.startLine k)) ∧
        (1 + Text.newlines text < 2 ^ 63 → lineBelow f.startLine k = f.startLine + k) ∧
        (∃ i < x.content.length, Text.newlines (x.content.take i) = k ∧
          (Text.splitAtChar '\n' f.code)[k]? = some (Text.firstLine (f.code.drop i))) ∧
        ∀ i < x.content.length, Text.newlines (x.content.take i) = k →
          ∃ line d front c behind, f.startLine = (line : Nat) ∧
            ReadBelow text before x.content line i d front ∧
            text = front ++ c :: behind ∧ x.content[i]? = some c ∧
            f.startLine + k + d = (1 + Text.newlines front : Nat) := by
  rw [scan_eq_ok] at h
  obtain ⟨x, hx, hk, hstart, hjoin, hgutter⟩ := exists_segment h hfinish hf hcode
  obtain ⟨before, after, rfl⟩ := List.append_of_mem hx
  have hread : ∀ {i}, i < x.content.length → ∃ line d front c behind,
      f.startLine = (line : Nat) ∧ ReadBelow text before x.content line i d front ∧
      text = front ++ c :: behind ∧ x.content[i]? = some c ∧
      f.startLine + Text.newlines (x.content.take i) + d = (1 + Text.newlines front : Nat) := by
    intro i hi
    obtain ⟨line, d, front, hline, hread⟩ := exists_readBelow h hk hi
    obtain ⟨c, behind, htext, hchar⟩ := hread.readsAt.text_eq
    have heq := hread.line_eq
    refine ⟨line, d, front, c, behind, hstart.trans hline, hread, htext, hchar, ?_⟩
    omega
  refine ⟨before, x, after, rfl, hk, hstart, hjoin, fun k hlt => ?_⟩
  have hlt' : k < Text.newlines f.code + 1 := by rwa [Text.length_splitAtChar] at hlt
  have hne : joinCode [x.content] ≠ [] := by
    rw [← hjoin]
    simpa [FinishedCard.hasCode] using hcode
  have hle : k ≤ Text.newlines (joinCode [x.content]) := hjoin ▸ Nat.le_of_lt_succ hlt'
  obtain ⟨i, hi, hlines, hline⟩ := exists_content_line hne hle
  rw [← hjoin] at hline
  refine ⟨?_, ?_, ⟨i, hi, hlines, hline⟩, ?_⟩
  · rw [hgutter, splitAtChar_gutter, List.getElem?_map, List.getElem?_range hlt']
    rfl
  · intro hsmall
    obtain ⟨line, d, front, c, behind, hline, -, htext, -, heq⟩ := hread hi
    rw [htext, Text.newlines_append] at hsmall
    rw [hlines] at heq
    apply lineBelow_eq <;> omega
  · rintro i hi rfl
    exact hread hi

/-- A literal over two lines, and a line of code behind a dropped one. The last character of the
code is read from line four and stands beside the number three. -/
theorem finishAll_gutter_line_mixed :
    ∃ (x : Segment) (f : FinishedCard),
      scan "a.js" "a = '\n';\n//+ignore+\nb" = .ok [x] ∧
      (finishAll (m := StateT Unit (Except Unit)) ⟨pure, pure⟩ (gather [x])).run () =
        .ok ([f], ()) ∧
      f.hasCode ∧ f.gutter = "1\n2\n3" ∧
      ∃ line d front, ReadBelow "a = '\n';\n//+ignore+\nb" [] x.content line 9 d front ∧
        f.startLine + 2 + d = (1 + Text.newlines front : Nat) := by
  have h : scan "a.js" "a = '\n';\n//+ignore+\nb" =
      .ok [{ kind := .code, content := "a = '\n';\nb", line := 1,
             source := "a = '\n';\n//+ignore+\nb" }] := by
    with_unfolding_all rfl
  have hfinish : (finishAll (m := StateT Unit (Except Unit)) ⟨pure, pure⟩
      (gather [{ kind := .code, content := "a = '\n';\nb", line := 1,
                 source := "a = '\n';\n//+ignore+\nb" }])).run () =
      .ok ([{ startLine := 1, code := "a = '\n';\nb", gutter := "1\n2\n3",
              codeHtml := "a = '\n';\nb" }], ()) := rfl
  refine ⟨_, _, h, hfinish, rfl, rfl, ?_⟩
  obtain ⟨before, x, after, hseg, -, -, -, hlines⟩ :=
    finishAll_gutter_line h hfinish List.mem_cons_self rfl
  obtain ⟨rfl, hx⟩ := (List.append_eq_singleton_iff.mp hseg.symm).resolve_right (by simp)
  obtain ⟨rfl, rfl⟩ := List.cons_eq_cons.mp hx
  obtain ⟨line, d, front, c, behind, -, hread, -, -, heq⟩ :=
    (hlines 2 (by decide)).2.2.2 9 (by decide) rfl
  exact ⟨line, d, front, hread, heq⟩

/-- A dropped line within the code shifts the numbers of the lines below it. -/
theorem gutter_number_below_dropped :
    ∃ (x : Segment) (f : FinishedCard) (front : Text),
      scan "a.js" "a\n//+ignore+\nb\n" = .ok [x] ∧
      (finishAll (m := StateT Unit (Except Unit)) ⟨pure, pure⟩ (gather [x])).run () =
        .ok ([f], ()) ∧
      (Text.splitAtChar '\n' f.code)[1]? = some ("b" : Text) ∧ x.content[2]? = some 'b' ∧
      ReadsAt "a\n//+ignore+\nb\n" [] x.content 2 front ∧ 1 + Text.newlines front = 3 ∧
      (Text.splitAtChar '\n' f.gutter)[1]? = some ("2" : Text) := by
  have h : scan "a.js" "a\n//+ignore+\nb\n" =
      .ok [{ kind := .code, content := "a\nb\n", line := 1, source := "a\n//+ignore+\nb\n" }] := by
    with_unfolding_all rfl
  have hreach : Reaches (ofText "a\n//+ignore+\nb\n")
      { mode := .base, rest := "b\n", line := 3, kept := "\na", start? := some 1,
        consumed := ("a\n//+ignore+\n" : Text).reverse, segments := [] } :=
    .step rfl (.step rfl (.step rfl (.refl _)))
  have hread : ReadsAt "a\n//+ignore+\nb\n" [] "a\nb\n" 2 "a\n//+ignore+\n" :=
    .keep (n := 1) (j := 0) hreach rfl rfl (by decide) (by decide)
  exact ⟨_, _, _, h, rfl, rfl, rfl, hread, rfl, rfl⟩

end Card

end Marginalia
