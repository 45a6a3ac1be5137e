import Marginalia.Proofs.Cut
import Mathlib.Data.List.Basic

/-!
# A file may be cut between two segments

Both parts of a file that is cut between two segments are segmented as they were within the file.
The one exception is a line comment whose file ends in two returns. The comment gives up the last
character of its line if that is a return, and takes it for the beginning of a line end; where no
line feed follows, the return stays behind as code. Without it the comment gives up the other
return.
-/
namespace Marginalia

namespace Segment

/-- In front of more text only a line comment can end in a return. -/
theorem Origin.exists_getLast? {after source content : Text} {kind : Kind}
    (h : Origin after kind source content) (ha : after ≠ [])
    (hk : kind = .blockComment ∨ kind = .clear) : ∃ c, source.getLast? = some c ∧ c ≠ '\r' := by
  cases h with
  | code _ => simp at hk
  | mark _ hspelled =>
      cases hspelled with
      | lineComment _ _ _ _ => simp at hk
      | blockComment _ _ _ _ he =>
          rcases he with ⟨rfl, rfl⟩ | rfl | rfl <;> simp [List.getLast?_append, List.getLast?_cons]
      | clear _ _ he =>
          obtain rfl := he.resolve_right fun hend => ha hend.2
          simp [List.getLast?_append, List.getLast?_cons]

end Segment

namespace Scanner
open Segment Marker

section Return
variable {text : Text} {s : Scanner}

theorem Reaches.last_step {t : Scanner} (h : Reaches s t) :
    s = t ∨ ∃ r, Reaches s r ∧ r.step = .next t := by
  induction h with
  | refl s => exact .inl rfl
  | @step s r t hstep _ ih =>
      right
      rcases ih with rfl | ⟨u, hu, hlast⟩
      · exact ⟨s, .refl s, hstep⟩
      · exact ⟨u, .step hstep hu, hlast⟩

/-- A step to a cut behind a return, with a lone return behind it, reads a line comment. -/
theorem Cut.opensLine_of_step {r : Scanner} (h : Cut text s) (hr : Reaches (ofText text) r)
    (hstep : r.step = .next s) (hm : s.mode = .base) (hrest : s.rest ≠ [])
    (hlast : (reassemble s.segments.reverse).getLast? = some '\r') :
    r.mode = .base ∧ opensLine r.rest ∧ isLicenseTag r.rest = false ∧
      directive? r.rest = none := by
  have hahead : s.ahead = s.rest := by rw [ahead, spent, h.consumed, List.reverse_nil]; rfl
  have hsame : s.ahead ≠ r.ahead := by
    intro he
    have hlt := step_next_lt hstep
    rw [hahead] at he
    rw [he, ahead, List.length_append] at hlt
    omega
  have htraced : Traced s := (hr.concat hstep).invariant Move.traced (.ofText text)
  have hemit : ∀ {t : Scanner} {kind : Kind}, kind = .blockComment ∨ kind = .clear →
      s ≠ (t.flush kind).enter .base := by
    rintro t kind hk rfl
    have hne : kind ≠ .code := by rcases hk with rfl | rfl <;> decide
    have hseg := segments_emit hne t
    have hrec := htraced.recorded
    rw [hseg, hahead] at hrec
    obtain ⟨c, hc, hne⟩ := hrec.1.exists_getLast? hrest hk
    rw [hseg, List.reverse_cons, reassemble_append, reassemble_singleton, List.getLast?_append,
      hc] at hlast
    exact hne (Option.some.inj hlast)
  cases step_move hstep with
  | keep _ _ => exact absurd (by simp) hsame
  | drop _ _ _ => exact absurd (by simp) hsame
  | clear _ _ _ => exact absurd rfl (hemit (.inr rfl))
  | lineComment hb ho hl hd _ _ => exact ⟨hb, ho, hl, hd⟩
  | openBlock _ _ => cases hm
  | blockLine _ _ _ _ => cases hm
  | closeBlock _ _ _ _ => exact absurd rfl (hemit (.inl rfl))

theorem extent_commentScript_return {b : Text} (ho : opensLine b) (h : '\n' ∉ b) :
    extent (commentScript (b ++ ['\r'])) = b.length := by
  have hlead := lineCommentLead_le ho
  simp only [commentScript_return ho h, extent, Op.extent, List.length_drop]
  omega

/-- A line comment between two returns that end the file stands on the last line. -/
theorem newline_notMem_of_return {a : Text} (ho : opensLine (a ++ ['\r']))
    (he : extent (commentScript (a ++ ['\r'])) = a.length) (ha : a.getLast? = some '\r') :
    '\n' ∉ a := by
  intro hmem
  rw [extent_commentScript ho (List.mem_append_left _ hmem)] at he
  obtain ⟨line, more, hfree, rfl⟩ := exists_line_of_mem hmem
  rw [List.append_assoc, List.cons_append, wholeLine_append_newline hfree, List.length_append,
    List.length_cons] at he
  obtain rfl : more = [] := List.eq_nil_of_length_eq_zero (by omega)
  simp at ha

/-- A step to a cut between two returns that end the file reads the line comment in front of it. -/
theorem Cut.exists_comment (h : Cut text s) (hne : s.segments ≠ []) (hrest : s.rest = ['\r'])
    (hlast : (reassemble s.segments.reverse).getLast? = some '\r') :
    ∃ r b, Reaches (ofText text) r ∧ r.mode = .base ∧ r.rest = b ++ ['\r'] ++ ['\r'] ∧
      '\n' ∉ b ∧ opensLine b ∧ isLicenseTag b = false ∧ directive? b = none ∧
      s = r.perform (commentScript r.rest) := by
  obtain ⟨r, hr, hm, hs, rfl | ⟨script, hp⟩⟩ := h.reached
  · rcases hr.last_step with rfl | ⟨r, hr, hstep⟩
    · exact absurd rfl hne
    obtain ⟨hb, ho, hl, hd⟩ := h.opensLine_of_step hr hstep hm (by simp [hrest]) hlast
    obtain ⟨script, hgo, hperf⟩ := step_next_iff.mp hstep
    have hplan : plan .base r.rest = .go (commentScript r.rest) := by
      rw [plan_base_of_opensLine ho, planLineComment, if_neg (by simp [hl]), hd]
    rw [hb, hplan] at hgo
    cases hgo
    obtain ⟨a, ha⟩ : ∃ a, a = r.rest.take (extent (commentScript r.rest)) := ⟨_, rfl⟩
    have hlen : extent (commentScript r.rest) = a.length := by
      rw [ha, List.length_take_of_le (plan_extent_le hplan)]
    have hsplit : r.rest = a ++ ['\r'] := by
      rw [← hrest, ← hperf, perform_rest, ha, List.take_append_drop]
    have hpassed : reassemble s.segments.reverse = r.passed ++ a := by
      have hwhole := hr.passed_append
      rw [← h.whole_eq, hrest, hsplit, ← List.append_assoc] at hwhole
      exact (List.append_cancel_right hwhole).symm
    rw [hsplit] at ho hl hd hlen
    have hopen : opensLine a := by rwa [opensLine_append_stop (by decide)] at ho
    have halast : a.getLast? = some '\r' := by
      have hane : a ≠ [] := by
        rintro rfl
        exact absurd hopen (by decide)
      rwa [hpassed, List.getLast?_append_of_ne_nil _ hane] at hlast
    have hfree := newline_notMem_of_return ho hlen halast
    obtain ⟨b, rfl⟩ := List.getLast?_eq_some_iff.mp halast
    rw [directive?_append_return hfree] at hd
    have hfreeb : '\n' ∉ b := fun hmem => hfree (List.mem_append_left _ hmem)
    rw [directive?_append_return hfreeb] at hd
    rw [isLicenseTag_append_stop (by decide), isLicenseTag_append_stop (by decide)] at hl
    rw [opensLine_append_stop (by decide)] at hopen
    exact ⟨r, b, hr, hb, hsplit, hfreeb, hopen, hl, hd, hperf.symm⟩
  · have hplan : plan .base ['\r'] = .go [.keep 1, .enter .base] := rfl
    have hflush : r.rest = s.rest := by rw [hs, flush_rest]
    rw [hm, hflush, hrest, hplan] at hp
    cases hp

theorem length_segments_comment (s : Scanner) (t : Text) :
    (s.perform (commentScript t)).segments.length = (s.flush .code).segments.length + 1 := by
  simp [commentScript, apply, flush_segments _ .lineComment]

/-- A return of its own is code. -/
theorem run_return : (ofText ['\r']).run =
    .ok [{ kind := .code, content := ['\r'], line := 1, source := ['\r'] }] := by
  rw [run_of_next (s := ofText ['\r']) rfl, run_of_done rfl]
  rfl

/-- Behind a cut in front of a lone return there is one more segment. -/
theorem Cut.run_return (h : Cut text s) (hrest : s.rest = ['\r']) (hne : s.segments ≠ []) :
    ∃ found, (ofText text).run = .ok found ∧ found.length = s.segments.length + 1 := by
  have hcorr := run_onto (n := Text.newlines (reassemble s.segments.reverse)) hne (ofText s.rest)
  rw [← h.eq_onto, ← h.run_eq, hrest, Scanner.run_return] at hcorr
  generalize (ofText text).run = outcome at hcorr
  cases hcorr with
  | ok hfound =>
      rcases hfound with rfl | ⟨-, hnil⟩
      · exact ⟨_, rfl, by simp⟩
      · simp at hnil

/-- Without the return behind it, a line comment that ends in a return leaves that one behind. -/
theorem Cut.stop_return (h : Cut text s) (hne : s.segments ≠ []) (hrest : s.rest = ['\r'])
    (hlast : (reassemble s.segments.reverse).getLast? = some '\r') :
    (ofText (reassemble s.segments.reverse)).run ≠ .ok s.segments.reverse := by
  obtain ⟨r, b, hr, hm, hsplit, hfree, ho, hl, hd, hs⟩ := h.exists_comment hne hrest hlast
  have hfront : reassemble s.segments.reverse = r.passed ++ (b ++ ['\r']) := by
    have hwhole := hr.passed_append
    rw [← h.whole_eq, hrest, hsplit, ← List.append_assoc] at hwhole
    exact (List.append_cancel_right hwhole).symm
  rw [hfront]
  have hreach : Reaches (ofText (r.passed ++ (b ++ ['\r']))) (r.before (b ++ ['\r'])) := by
    refine hr.exchange (p := r.passed) ?_ ?_ hsplit
    · intro a mode script ha _ hgo hle
      rw [← List.append_assoc] at hgo
      refine plan_of_append (by simp) (fun hext => ?_) hgo ?_
      · simp only [List.length_append, List.length_singleton] at hext
        omega
      · rw [List.length_append]
        omega
    · rw [← hsplit]
      exact hr.passed_append.symm
  have hstop : isStop '\r' := by decide
  have hplan : plan .base (b ++ ['\r']) = .go (commentScript (b ++ ['\r'])) := by
    rw [plan_base_of_opensLine (by rwa [opensLine_append_stop hstop]), planLineComment,
      isLicenseTag_append_stop hstop, hl, directive?_append_return hfree, hd]
    rfl
  have hnext := hreach.concat (step_next_iff.mpr ⟨_, by rw [before_mode, hm]; exact hplan, rfl⟩)
  have hcut : Cut (r.passed ++ (b ++ ['\r']))
      ((r.before (b ++ ['\r'])).perform (commentScript (b ++ ['\r']))) :=
    cut_emit (by decide) hnext
  have hreturn : ((r.before (b ++ ['\r'])).perform (commentScript (b ++ ['\r']))).rest =
      ['\r'] := by
    rw [perform_rest, before_rest, extent_commentScript_return ho hfree, List.drop_left]
  have hlen : ((r.before (b ++ ['\r'])).perform (commentScript (b ++ ['\r']))).segments.length =
      s.segments.length := by
    rw [hs, length_segments_comment, length_segments_comment, flush_segments, flush_segments]
    rfl
  obtain ⟨found, hrun, hfound⟩ := hcut.run_return hreturn (by
    rw [← List.length_pos_iff, hlen]
    exact List.length_pos_iff.mpr hne)
  rw [hrun]
  intro hsame
  rw [Except.ok.inj hsame, hlen, List.length_reverse] at hfound
  omega

end Return

end Scanner

namespace Segment
open Scanner

/-- A file may be cut between two of its segments. Both parts are segmented as they were within the
file, the second one from line one on. Between two returns that end the file, and nowhere else, the
first part comes out otherwise. -/
theorem scan_cut {file text : Text} {p q : List Segment} (h : scan file text = .ok (p ++ q))
    (hp : p ≠ []) (hq : q ≠ []) :
    (scan file (reassemble p) = .ok p ↔
      ¬((reassemble p).getLast? = some '\r' ∧ reassemble q = ['\r'])) ∧
    scan file (reassemble q) = .ok (q.map (up (Text.newlines (reassemble p)))) := by
  rw [scan_eq_ok] at h
  obtain ⟨s, hcut, hs⟩ := exists_cut h hp hq
  have hsegments : s.segments.reverse = p := by rw [hs, List.reverse_reverse]
  have hrest : s.rest = reassemble q := by
    have hwhole : reassemble (p ++ q) = text := reassemble_run h
    rw [← hcut.whole_eq, hsegments, reassemble_append] at hwhole
    exact (List.append_cancel_left hwhole).symm
  have hstop := hcut.stop
  have hreturn := hcut.stop_return (by simpa [hs] using hp)
  rw [hsegments, hrest] at hstop hreturn
  simp only [scan_eq_ok]
  refine ⟨⟨fun hsame hr => hreturn hr.2 hr.1 hsame, hstop⟩, ?_⟩
  rw [← hrest]
  exact hcut.resume hs hp hq h

/-- A file with a comment, code in front of a dropped line, and a comment in front of a lone return
may be cut in front of the second comment, which stands on the fourth line. -/
theorem scan_cut_mixed :
    ∃ p q : List Segment, p.length = 2 ∧ q.map (·.line) = [4, 4] ∧
      scan "a.sol" "/* a */\nx = \"//\"; // b\r\n//+ignore+\n\t// c\r" = .ok (p ++ q) ∧
      scan "a.sol" "/* a */\nx = \"//\"; // b\r\n//+ignore+\n" = .ok p ∧
      scan "a.sol" "\t// c\r" = .ok (q.map (up 3)) := by
  have h : scan "a.sol" "/* a */\nx = \"//\"; // b\r\n//+ignore+\n\t// c\r" =
      .ok ([{ kind := .blockComment, content := "a ", line := 1, source := "/* a */\n" },
            { kind := .code, content := "x = \"//\"; // b\r\n", line := 2,
              source := "x = \"//\"; // b\r\n//+ignore+\n" }] ++
          [{ kind := .lineComment, content := "c", line := 4, source := "\t// c" },
            { kind := .code, content := "\r", line := 4, source := "\r" }]) := by
    with_unfolding_all rfl
  obtain ⟨hfront, hbehind⟩ := scan_cut h (by simp) (by simp)
  exact ⟨_, _, rfl, rfl, h, hfront.mpr (by decide), hbehind⟩

/-- In front of the last of two returns a line comment keeps a return that it gives up at the end
of a file. -/
theorem scan_cut_between_returns :
    ∃ p q : List Segment, p ≠ [] ∧ q ≠ [] ∧ scan "a.sol" "// c\r\r" = .ok (p ++ q) ∧
      scan "a.sol" (reassemble p) ≠ .ok p := by
  have h : scan "a.sol" "// c\r\r" =
      .ok ([{ kind := .lineComment, content := "c\r", line := 1, source := "// c\r" }] ++
          [{ kind := .code, content := "\r", line := 1, source := "\r" }]) := by
    with_unfolding_all rfl
  refine ⟨_, _, by simp, by simp, h, ?_⟩
  have hfront : scan "a.sol" "// c\r" =
      .ok [{ kind := .lineComment, content := "c", line := 1, source := "// c" },
           { kind := .code, content := "\r", line := 1, source := "\r" }] := by
    with_unfolding_all rfl
  intro hsame
  simpa using Except.ok.inj (hfront.symm.trans hsame)

end Segment

end Marginalia
