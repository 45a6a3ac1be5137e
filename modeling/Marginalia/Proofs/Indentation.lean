import Marginalia.Proofs.BlockComment
import Marginalia.Proofs.Emission
import Marginalia.Proofs.Literal

/-!
# The indentation of a block comment

The scanner comes to a moved comment as it came to the comment itself, goes through it line by line,
and emits it where the other one was emitted. What it holds grows by the lines without their
indentation. From there on the two scanners stand at the same place and have the same segments but
for one, and a file that ends behind it adds the same dropped lines to its source.
-/
namespace Marginalia

namespace Scanner
open Segment Marker

/-- One scanner stands behind another, which has moved over a text and kept some of it. -/
structure Carried (t w : Scanner) (text content : Text) : Prop where
  rest : t.rest = text ++ w.rest
  line : w.line = t.line + Text.newlines text
  spent : w.spent = t.spent ++ text
  held : w.held = t.held ++ content
  segments : w.segments = t.segments
  start? : w.start? = t.start?

section Carried
variable {t w r : Scanner} {a b text text' content content' : Text}

theorem Carried.trans (h : Carried t w text content) (h' : Carried w r text' content') :
    Carried t r (text ++ text') (content ++ content') where
  rest := by rw [h.rest, h'.rest, List.append_assoc]
  line := by rw [h'.line, h.line, Text.newlines_append, Nat.add_assoc]
  spent := by rw [h'.spent, h.spent, List.append_assoc]
  held := by rw [h'.held, h.held, List.append_assoc]
  segments := h'.segments.trans h.segments
  start? := h'.start?.trans h.start?

theorem Carried.enter (h : Carried t w text content) (mode : Mode) :
    Carried t (w.enter mode) text content :=
  ⟨h.rest, h.line, h.spent, h.held, h.segments, h.start?⟩

theorem carried_skip (h : t.rest = a ++ b) : Carried t (t.skip a.length) a [] where
  rest := by simp [h]
  line := by simp [h]
  spent := by simp [h]
  held := by simp
  segments := rfl
  start? := rfl

theorem carried_keep (h : t.rest = a ++ b) (hs : t.start?.isSome) :
    Carried t (t.keep a.length) a a where
  rest := by simp [h]
  line := by simp [h]
  spent := by simp [h]
  held := by simp [h]
  segments := by simp
  start? := by
    obtain ⟨l, hl⟩ := Option.isSome_iff_exists.mp hs
    rw [keep_start?, hl, Option.getD_some, ite_self]

end Carried

section Lines
variable {t : Scanner} {indent : Nat} {line first v more : Text} {further : List Text}

/-- The blanks that a line loses, whatever stands behind it. -/
theorem exists_blanks_append_outdent {rest z : Text} (indent : Nat)
    (hz : ∀ c ∈ z.head?, isHorizontal c = false) (hrest : rest = line ++ z) :
    ∃ blanks, line = blanks ++ outdent indent line ∧ marginUpTo indent rest = blanks.length ∧
      rest = blanks ++ (outdent indent line ++ z) := by
  have hline : line = line.take (marginUpTo indent line) ++ outdent indent line :=
    (List.take_append_drop _ line).symm
  refine ⟨_, hline, ?_, ?_⟩
  · rw [length_take_marginUpTo, hrest, marginUpTo, marginUpTo, margin_append hz]
  · rw [← List.append_assoc, ← hline, hrest]

/-- A line that does not close the comment is kept without its indentation. -/
theorem step_further (hm : t.mode = .block indent) (hs : t.start?.isSome)
    (hline : CommentLine line) (hrest : t.rest = line ++ ("\n" ++ more)) :
    ∃ w, t.step = .next w ∧ w.mode = .block indent ∧
      Carried t w (line ++ "\n") (outdent indent line ++ "\n") := by
  have hne : t.rest ≠ [] := by simp [hrest]
  obtain ⟨blanks, hsplit, hmargin, hall⟩ :=
    exists_blanks_append_outdent indent (by simp +decide) hrest
  obtain ⟨hfree, hopen⟩ := hline.outdent indent
  generalize outdent indent line = body at hsplit hall hfree hopen ⊢
  have hdrop : t.rest.drop blanks.length = body ++ '\n' :: more := by
    rw [hall, List.drop_left]
    rfl
  have hcut : Text.cut? "*/" (Text.firstLine (body ++ '\n' :: more)) = none := by
    rwa [Text.firstLine_append_newline hfree, Text.cut?_eq_none_iff (by decide)]
  have hwhole : wholeLine (body ++ '\n' :: more) = (body ++ ("\n" : Text)).length := by
    rw [wholeLine_append_newline hfree, List.length_append]
    rfl
  have hplan : plan t.mode t.rest = .go [.skip blanks.length,
      .keep (body ++ ("\n" : Text)).length, .enter (.block indent)] := by
    rw [hm, plan, planBlock_of_ne_nil hne, hmargin, hdrop, hcut]
    simp only [blockLineScript, hmargin, hdrop, hwhole]
  have hskip := carried_skip hall
  have hkeep := carried_keep (t := t.skip blanks.length) (b := more)
    (a := body ++ ("\n" : Text)) (by rw [skip_rest, hall, List.drop_left, List.append_assoc]) hs
  refine ⟨_, step_next_iff.mpr ⟨_, hplan, rfl⟩, rfl, ?_⟩
  rw [hsplit, List.append_assoc]
  exact (hskip.trans hkeep).enter (.block indent)

/-- The line that closes the comment is kept up to the terminator. -/
theorem step_last (hm : t.mode = .block indent) (hs : t.start?.isSome)
    (hline : CommentLine line) (hrest : t.rest = line ++ ("*/" ++ v)) :
    ∃ w, t.step = .next ((w.flush .blockComment).enter .base) ∧
      Carried t w (line ++ ("*/" ++ v.take (trailing v))) (outdent indent line) := by
  have hne : t.rest ≠ [] := by simp [hrest]
  obtain ⟨blanks, hsplit, hmargin, hall⟩ :=
    exists_blanks_append_outdent indent (by simp +decide) hrest
  obtain ⟨hfree, hopen⟩ := hline.outdent indent
  generalize outdent indent line = body at hsplit hall hfree hopen ⊢
  have hdrop : t.rest.drop blanks.length = body ++ ("*/" ++ v) := by
    rw [hall, List.drop_left]
  have hcut : Text.cut? "*/" (Text.firstLine (body ++ ("*/" ++ v))) =
      some (body, Text.firstLine v) := by
    rw [Text.firstLine_append hfree, Text.firstLine_append (by decide), Text.cut?_terminator hopen]
  have hbehind : ((body ++ ("*/" ++ v)).drop body.length).drop 2 = v := by
    rw [List.drop_left]
    rfl
  have hplan : plan t.mode t.rest = .go [.skip blanks.length, .keep body.length, .skip 2,
      .skip (trailing v), .flush .blockComment, .enter .base] := by
    rw [hm, plan, planBlock_of_ne_nil hne, hmargin, hdrop, hcut]
    simp only [closeScript, hmargin, hdrop, hbehind]
  have hskip := carried_skip hall
  have hkeep := carried_keep (t := t.skip blanks.length) (a := body) (b := "*/" ++ v)
    (by rw [skip_rest, hdrop]) hs
  have hclose := carried_skip (t := (t.skip blanks.length).keep body.length) (a := "*/") (b := v)
    (by rw [keep_rest, skip_rest, hdrop, List.drop_left])
  have htrail := carried_skip (t := ((t.skip blanks.length).keep body.length).skip 2)
    (a := v.take (trailing v)) (b := v.drop (trailing v))
    (by rw [skip_rest, keep_rest, skip_rest, hdrop, hbehind, List.take_append_drop])
  rw [List.length_take_of_le (trailing_le v)] at htrail
  have hwhole := hskip.trans (hkeep.trans (hclose.trans htrail))
  rw [List.nil_append, List.append_nil, List.append_nil] at hwhole
  refine ⟨_, step_next_iff.mpr ⟨_, hplan, rfl⟩, ?_⟩
  rw [hsplit, List.append_assoc]
  exact hwhole

/-- Line by line the scanner comes to the end of the comment. -/
theorem reaches_last (hm : t.mode = .block indent) (hs : t.start?.isSome)
    (hbody : ∀ line ∈ first :: further, CommentLine line)
    (hrest : t.rest = Text.join "\n" (first :: further) ++ ("*/" ++ v)) :
    ∃ w, Reaches t ((w.flush .blockComment).enter .base) ∧
      Carried t w (Text.join "\n" (first :: further) ++ ("*/" ++ v.take (trailing v)))
        (Text.join "\n" ((first :: further).map (outdent indent))) := by
  induction further generalizing first t with
  | nil =>
      have hjoin : ∀ t : Text, Text.join "\n" [t] = t := fun t => by simp [Text.join]
      rw [hjoin] at hrest
      obtain ⟨w, hstep, hw⟩ := step_last hm hs (hbody first List.mem_cons_self) hrest
      refine ⟨w, .step hstep (.refl _), ?_⟩
      rw [List.map_singleton, hjoin, hjoin]
      exact hw
  | cons line further ih =>
      obtain ⟨hfirst, hbody⟩ := List.forall_mem_cons.mp hbody
      rw [Text.join_cons_cons, List.append_assoc, List.append_assoc] at hrest
      obtain ⟨r, hstep, hmode, hr⟩ := step_further hm hs hfirst hrest
      have hrest' : r.rest = Text.join "\n" (line :: further) ++ ("*/" ++ v) := by
        have hboth := hrest.symm.trans hr.rest
        rw [List.append_assoc, List.append_cancel_left_eq, List.append_cancel_left_eq] at hboth
        exact hboth.symm
      obtain ⟨w, hreach, hw⟩ := ih hmode (hr.start? ▸ hs) hbody hrest'
      refine ⟨w, .step hstep hreach, ?_⟩
      have hwhole := hr.trans hw
      rw [List.map_cons, List.map_cons, Text.join_cons_cons, Text.join_cons_cons]
      simpa only [List.append_assoc, List.map_cons] using hwhole

end Lines

/-- From the start of a block comment of its own the scanner comes behind it, with the comment as
its last segment. -/
theorem reaches_behind (c : BlockComment) {s : Scanner} {v : Text} (hm : s.mode = .base)
    (hs : s.rest = c.text ++ v) :
    ∃ w : Scanner, Reaches s ((w.flush .blockComment).enter .base) ∧
      w.rest = v.drop (trailing v) ∧
      w.line = s.line + Text.newlines (c.text ++ v.take (trailing v)) ∧
      w.segments = (s.flush .code).segments ∧
      w.pending .blockComment =
        c.segment (s.flush .code).spent s.line (v.take (trailing v)) := by
  have hopen : opensBlock s.rest := hs ▸ c.opensBlock_text v
  have hmargin : margin s.rest = c.margin.length := by
    rw [hs, BlockComment.text, List.append_assoc]
    exact margin_blanks_append c.blanks (by simp +decide)
  obtain ⟨t, ht⟩ : ∃ t, t = ((s.flush .code).begin.skip (c.margin.length + 2)).enter
      (.block (c.margin.length + blockIndentGap)) := ⟨_, rfl⟩
  have hstep : s.step = .next t := by
    refine step_next_iff.mpr ⟨openScript s.rest, ?_, ?_⟩
    · rw [hm, plan_base_of_opensBlock hopen]
    · rw [ht, openScript, hmargin]
      rfl
  have hrest : (s.flush .code).begin.rest = (c.margin ++ "/*") ++
      (Text.join "\n" (c.first :: c.further) ++ ("*/" ++ v)) := by
    rw [begin_rest, flush_rest, hs, BlockComment.text]
    simp only [List.append_assoc]
  have hopened : Carried (s.flush .code).begin t (c.margin ++ "/*") [] := by
    have hlen : (c.margin ++ ("/*" : Text)).length = c.margin.length + 2 := by
      rw [List.length_append]
      rfl
    have hskip := carried_skip hrest
    rw [hlen] at hskip
    rw [ht]
    exact hskip.enter _
  have hrest' : t.rest = Text.join "\n" (c.first :: c.further) ++ ("*/" ++ v) :=
    List.append_cancel_left (hopened.rest.symm.trans hrest)
  have hstart : t.start?.isSome := by rw [hopened.start?]; rfl
  obtain ⟨w, hreach, hw⟩ := reaches_last (by rw [ht]; rfl) hstart c.body hrest'
  have hall : Carried (s.flush .code).begin w (c.text ++ v.take (trailing v)) c.content := by
    have hboth := hopened.trans hw
    simpa only [BlockComment.text, BlockComment.content, List.append_assoc, List.nil_append]
      using hboth
  refine ⟨w, .step hstep hreach, ?_, ?_, hall.segments, ?_⟩
  · have hboth := hall.rest
    rw [begin_rest, flush_rest, hs, List.append_assoc, List.append_cancel_left_eq] at hboth
    exact List.append_cancel_left (hboth.symm.trans (List.take_append_drop _ v).symm)
  · rw [hall.line, begin_line, flush_line]
  · rw [pending, hall.held, hall.start?, hall.spent, begin_held, flush_held, begin_spent,
      begin_start?, flush_line]
    rfl

theorem flush_spent (s : Scanner) (kind : Kind) : (s.flush kind).spent =
    if kind = .code ∧ s.held = [] then s.spent else [] := by
  by_cases h : kind ≠ .code ∨ s.held ≠ []
  · rw [flush_eq h, if_neg fun hk => h.elim (· hk.1) (· hk.2)]
    rfl
  · simp only [not_or, not_not] at h
    rw [if_pos h, h.1, flush_code_of_held_nil h.2]
    rfl

theorem flush_before (s : Scanner) (kind : Kind) (y : Text) :
    (s.before y).flush kind = (s.flush kind).before y := by
  by_cases h : kind = .code ∧ s.kept = [] <;> simp [flush, before, h]

/-- Both scanners are at the same place and have the same segments, but for one. -/
structure Parted (earlier : List Segment) (x x' : Segment) (s s' : Scanner) : Prop
    extends Abreast s s' where
  held : s'.held = s.held
  spent : s'.spent = s.spent
  segments : ∃ later, s.segments = later ++ x :: earlier ∧ s'.segments = later ++ x' :: earlier

section Parted
variable {earlier : List Segment} {x x' : Segment} {s s' : Scanner}

theorem Parted.apply (h : Parted earlier x x' s s') (op : Op) :
    Parted earlier x x' (s.apply op) (s'.apply op) := by
  obtain ⟨later, hs, hs'⟩ := h.segments
  refine ⟨h.toAbreast.apply op, ?_, ?_, ?_⟩
  · cases op <;> simp [Scanner.apply, h.held, h.rest]
  · cases op with
    | flush kind => simp [Scanner.apply, flush_spent, h.held, h.spent]
    | skip n => simp [Scanner.apply, h.spent, h.rest]
    | keep n => simp [Scanner.apply, h.spent, h.rest]
    | begin => exact h.spent
    | enter mode => exact h.spent
  · cases op with
    | flush kind =>
        have hpending : s'.pending kind = s.pending kind := by
          simp [pending, h.held, h.spent, h.start?, h.line]
        simp only [Scanner.apply, flush_segments, h.held, hpending]
        split
        · exact ⟨later, hs, hs'⟩
        · exact ⟨s.pending kind :: later, by rw [hs]; rfl, by rw [hs']; rfl⟩
    | skip n => exact ⟨later, hs, hs'⟩
    | keep n =>
        simp only [Scanner.apply, keep_segments]
        exact ⟨later, hs, hs'⟩
    | begin => exact ⟨later, hs, hs'⟩
    | enter mode => exact ⟨later, hs, hs'⟩

theorem Parted.finish (h : Parted earlier x x' s s') :
    ∃ tail later, s.finish = earlier.reverse ++ x.extend tail :: later ∧
      s'.finish = earlier.reverse ++ x'.extend tail :: later := by
  obtain ⟨later, hs, hs'⟩ := h.segments
  cases later with
  | nil =>
      refine ⟨s.spent, [], ?_, ?_⟩
      · rw [finish_of_segments hs]
      · rw [finish_of_segments hs', h.spent]
  | cons last later =>
      refine ⟨[], later.reverse ++ [last.extend s.spent], ?_, ?_⟩
      · rw [finish_of_segments hs]
        simp [extend]
      · rw [finish_of_segments hs', h.spent]
        simp [extend]

theorem Parted.run (h : Parted earlier x x' s s') :
    Corresponds SamePlace
      (fun found found' => ∃ tail later, found = earlier.reverse ++ x.extend tail :: later ∧
        found' = earlier.reverse ++ x'.extend tail :: later) s.run s'.run := by
  refine run_corresponds (Q := Parted earlier x x') ?_ h
  intro s s' h
  refine answers_of_plan_eq (by rw [h.mode, h.rest]) ?_ ?_ ?_
  · intro script _
    exact perform_related (fun op h => h.apply op) h script
  · intro _
    exact (h.apply (.flush .code)).finish
  · intro fault _
    exact ⟨rfl, h.toAbreast⟩

end Parted

section Moved
variable {s : Scanner} {u v y : Text}

/-- Behind two comments with as many line feeds the scanner is in the same place. -/
theorem exists_parted (c c' : BlockComment) (hn : Text.newlines c'.text = Text.newlines c.text)
    (hm : s.mode = .base) (hs : s.rest = c.text ++ v) :
    ∃ t t', Reaches s t ∧ Reaches (s.before (c'.text ++ v)) t' ∧
      Parted (s.flush .code).segments
        (c.segment (s.flush .code).spent s.line (v.take (trailing v)))
        (c'.segment (s.flush .code).spent s.line (v.take (trailing v))) t t' := by
  obtain ⟨w, hw, hrest, hline, hseg, hx⟩ := reaches_behind c hm hs
  obtain ⟨w', hw', hrest', hline', hseg', hx'⟩ :=
    reaches_behind c' (s := s.before (c'.text ++ v)) hm rfl
  rw [flush_before] at hseg' hx'
  refine ⟨_, _, hw, hw', ⟨rfl, ?_, ?_, ?_⟩, ?_, ?_, [], ?_, ?_⟩
  · simp [hrest, hrest']
  · simp [hline, hline', Text.newlines_append, hn]
  · simp
  · simp
  · simp [flush_spent]
  · rw [segments_emit (by decide), hseg, hx, List.nil_append]
  · rw [segments_emit (by decide), hseg', hx']
    rfl

/-- What has been scanned when the code in front of a place is flushed. -/
theorem Reaches.reassemble_flush_code (hr : Reaches (ofText (u ++ y)) s) (hs : s.rest = y) :
    reassemble (s.flush .code).segments.reverse ++ (s.flush .code).spent = u := by
  have hwhole : (s.flush .code).whole = u ++ y := (whole_flush .code s).trans hr.whole_eq
  rw [whole, ahead, flush_rest, hs, ← List.append_assoc] at hwhole
  exact List.append_cancel_right hwhole

end Moved

end Scanner

namespace Segment
open Marker Scanner

/-- Two streams of segments that agree but for one block comment. It stands between the texts
`front` and `behind`, on the same line in both of them. -/
def AgreeAround (front behind : Text) (c c' : BlockComment) (found found' : List Segment) : Prop :=
  ∃ before lead line tail after, found = before ++ c.segment lead line tail :: after ∧
    found' = before ++ c'.segment lead line tail :: after ∧
    reassemble before ++ lead = front ∧ DroppedLines (c.text ++ behind) lead

/-- If a block comment of its own is moved to the right with all of its lines, its content stays the
same from the first line feed on, and all other segments of the file are what they were. -/
theorem scan_moved (file : Text) {u v margin : Text} (c : BlockComment) {k : Nat}
    {further : List Text} {s : Scanner} (hm : Blanks margin)
    (hlen : margin.length = c.margin.length + k)
    (hf : List.Forall₂ (Indented k) c.further further)
    (hr : Reaches (ofText (u ++ (c.text ++ v))) s) (hs : s.rest = c.text ++ v)
    (hbase : s.mode = .base) :
    (c.moved hm hf).content.drop (lineLength (c.moved hm hf).content) =
        c.content.drop (lineLength c.content) ∧
      Corresponds Eq (AgreeAround u v c (c.moved hm hf))
        (scan file (u ++ (c.text ++ v))) (scan file (u ++ ((c.moved hm hf).text ++ v))) := by
  refine ⟨c.moved_content_below hm hf hlen, ?_⟩
  have hr' := reaches_opening (c.opensAlike_moved hm hf hlen v) hr hs
  obtain ⟨t, t', ht, ht', hparted⟩ := exists_parted c _ (c.newlines_moved hm hf) hbase hs
  have hcorr := hparted.run
  rw [← ht.run_eq, ← hr.run_eq, ← ht'.run_eq, ← hr'.run_eq] at hcorr
  have hlead : DroppedLines (c.text ++ v) (s.flush .code).spent := by
    have hidle := ((hr.dated (.ofText _)).flush_code (.inl hbase)).2
    rw [← hs, ← flush_rest .code s]
    exact hidle.dropped
  refine scan_corresponds (hcorr.imp (fun _ _ _ h => h) ?_) ?_
  · rintro _ _ - ⟨tail, later, rfl, rfl⟩
    refine ⟨_, _, s.line, v.take (trailing v) ++ tail, later, ?_, ?_,
      hr.reassemble_flush_code hs, hlead⟩
    · simp [extend, BlockComment.segment]
    · simp [extend, BlockComment.segment]
  · rintro ⟨fault, t⟩ ⟨_, t'⟩ ⟨rfl, h⟩
    exact (h.report_eq file fault).symm

/-- A comment with an empty line, a starred line and an indented terminator, moved by a tab and a
blank. -/
theorem scan_moved_starred :
    ∃ c c' : BlockComment,
      c.text = "  /* one\n     two\n\n   * three\n  */" ∧
      c'.text = "\t   /* one\n\t      two\n\n\t    * three\n\t   */" ∧
      c'.content.drop (lineLength c'.content) = c.content.drop (lineLength c.content) ∧
      Corresponds Eq (AgreeAround "a;\n" " b\n" c c')
        (scan "a.js" ("a;\n" ++ (c.text ++ " b\n")))
        (scan "a.js" ("a;\n" ++ (c'.text ++ " b\n"))) := by
  have hblanks : ∀ t : Text, t.all isHorizontal → Blanks t := fun t h => List.all_eq_true.mp h
  have hmoved : ∀ line, Indented 2 line ('\t' :: ' ' :: line) :=
    fun line => .moved line (hblanks ['\t', ' '] (by decide)) rfl
  have hf : List.Forall₂ (Indented 2) ["     two", "", "   * three", "  "]
      ["\t      two", "", "\t    * three", "\t   "] :=
    .cons (hmoved "     two") (.cons (.empty (.inl rfl)) (.cons (hmoved "   * three")
      (.cons (hmoved "  ") .nil)))
  have hbody : ∀ line ∈ ([" one", "     two", "", "   * three", "  "] : List Text),
      CommentLine line := by
    decide +kernel
  have hm : Blanks ("\t   " : Text) := hblanks _ (by decide)
  obtain ⟨c, hmargin, hfirst, hfurther⟩ : ∃ c : BlockComment, c.margin = "  " ∧ c.first = " one" ∧
      c.further = (["     two", "", "   * three", "  "] : List Text) :=
    ⟨⟨_, _, _, hblanks _ (by decide), hbody⟩, rfl, rfl, rfl⟩
  have htext : c.text = "  /* one\n     two\n\n   * three\n  */" := by
    rw [BlockComment.text, hmargin, hfirst, hfurther]
    rfl
  have hreach : ∃ s : Scanner, Reaches (ofText ("a;\n" ++ (c.text ++ " b\n"))) s ∧
      s.rest = c.text ++ " b\n" ∧ s.mode = .base := by
    rw [htext]
    exact ⟨_, .step rfl (.step rfl (.step rfl (.refl _))), rfl, rfl⟩
  obtain ⟨s, hr, hs, hbase⟩ := hreach
  rw [← hfurther] at hf
  refine ⟨c, c.moved hm hf, htext, ?_, scan_moved "a.js" c hm ?_ hf hr hs hbase⟩
  · simp only [BlockComment.text, BlockComment.moved, hfirst]
    rfl
  · rw [hmargin]
    rfl

end Segment

end Marginalia
