import Marginalia.Proofs.Onset

/-!
# Where scanning fails

A run fails at a line directive that is not known, or at a block comment that is never closed. A
comment of its own is searched line by line and the failure is found where the file ends; a comment
within a line of code is searched at once and fails where it opens. The terminator has no line feed
and the margins that are removed have no part of it, so the search by lines finds whatever stands in
the text, and a scanner within a comment that is never closed does not come out of it any more.
-/
namespace Marginalia

namespace Text

theorem cut?_eq_none_iff {marker t : Text} (hm : marker ≠ []) :
    cut? marker t = none ↔ ¬marker <:+: t := by
  constructor
  · rintro h ⟨a, b, rfl⟩
    rw [List.append_assoc] at h
    have hopen := opens_of_cut?_eq_none h hm
    rw [opens_iff.mpr ⟨b, rfl⟩] at hopen
    cases hopen
  · intro h
    cases hcut : cut? marker t with
    | none => rfl
    | some p => exact absurd ⟨p.1, p.2, (cut?_eq_some hcut).symm⟩ h

/-- A marker does not stand across a character that it does not have. -/
theorem infix_append_cons_iff {marker a b : Text} {e : Char} (he : e ∉ marker) :
    marker <:+: a ++ e :: b ↔ marker <:+: a ∨ marker <:+: b := by
  constructor
  · rintro ⟨x, y, hxy⟩
    rw [List.append_assoc] at hxy
    rcases List.append_eq_append_iff.mp hxy with ⟨z, rfl, hz⟩ | ⟨z, rfl, hz⟩
    · rcases List.append_eq_append_iff.mp hz with ⟨w, rfl, -⟩ | ⟨w, rfl, hw⟩
      · exact .inl ⟨x, w, List.append_assoc x marker w⟩
      · cases w with
        | nil => exact .inl ⟨x, [], by simp⟩
        | cons c w =>
            obtain ⟨rfl, -⟩ := List.cons.inj hw
            simp at he
    · cases z with
      | nil =>
          cases marker with
          | nil => exact .inr List.nil_infix
          | cons m ms =>
              obtain ⟨rfl, -⟩ := List.cons.inj hz
              simp at he
      | cons c z =>
          obtain ⟨-, rfl⟩ := List.cons.inj hz
          exact .inr ⟨z, y, List.append_assoc z marker y⟩
  · rintro (h | h)
    · exact h.trans (List.prefix_append a (e :: b)).isInfix
    · exact h.trans ⟨a ++ [e], [], by simp⟩

end Text

namespace Marker

/-- A line directive at the front of a text. The flag stands between two plus signs on one line and
has none of its own, so that no shorter text could be the flag. -/
def Directs (flag t : Text) : Prop :=
  ∃ margin more, Blanks margin ∧ '\n' ∉ flag ∧ '+' ∉ flag ∧
    t = margin ++ "//+" ++ flag ++ "+" ++ more

/-- A block comment that opens at the front of a text and is never closed. -/
def Unclosed (t : Text) : Prop := ∃ behind, t = "/*" ++ behind ∧ ¬("*/" : Text) <:+: behind

theorem directive?_eq_some_iff {t flag : Text} : directive? t = some flag ↔ Directs flag t := by
  simp only [Directs, List.append_assoc]
  constructor
  · intro h
    unfold directive? at h
    split at h
    · cases h
    · next behind hopen =>
      have hcut := (Text.cut?_singleton '+' (Text.firstLine behind)).symm.trans h
      split at hcut
      · next hmem =>
        obtain ⟨⟨f, words⟩, hf, rfl⟩ := Option.map_eq_some_iff.mp h
        obtain ⟨hline, more, rfl⟩ := Text.cut?_firstLine hf
        refine ⟨t.take (margin t), more, blanks_take_margin t, hline, fun hplus => ?_, ?_⟩
        · rw [← Option.some.inj hcut] at hplus
          simpa using List.mem_takeWhile_imp hplus
        · rw [← Text.dropOpening?_eq_some.mp hopen, List.take_append_drop]
      · cases hcut
  · rintro ⟨m, more, hm, hline, hplus, rfl⟩
    have hopen : Text.dropOpening? "//+" ("//+" ++ (flag ++ ("+" ++ more))) =
        some (flag ++ ("+" ++ more)) :=
      Text.dropOpening?_eq_some.mpr rfl
    have hfirst : Text.firstLine (flag ++ ("+" ++ more)) = flag ++ '+' :: Text.firstLine more := by
      rw [Text.firstLine_append hline, Text.firstLine_append (by decide)]
      rfl
    rw [directive?, drop_margin_blanks_append hm (by simp +decide), hopen]
    simp only [hfirst]
    refine (Text.cut?_singleton '+' _).trans ?_
    rw [if_pos (by simp), List.takeWhile_append_of_pos]
    · simp
    · intro c hc
      simp only [ne_eq, decide_not, Bool.not_eq_eq_eq_not, Bool.not_true, decide_eq_false_iff_not]
      rintro rfl
      exact hplus hc

theorem Directs.opensLine {flag t : Text} (h : Directs flag t) : opensLine t := by
  obtain ⟨m, more, hm, -, -, rfl⟩ := h
  have hopen := opensLine_append hm ("+" ++ flag ++ "+" ++ more)
  simpa using hopen

theorem infix_blanks_append_iff {blanks t : Text} (hb : Blanks blanks) :
    ("*/" : Text) <:+: blanks ++ t ↔ ("*/" : Text) <:+: t := by
  induction blanks with
  | nil => rfl
  | cons c cs ih =>
      have hc : c ∉ ("*/" : Text) := by
        intro hmem
        have hblank := hb c List.mem_cons_self
        obtain rfl | rfl : c = '*' ∨ c = '/' := by simpa using hmem
        · exact absurd hblank (by decide)
        · exact absurd hblank (by decide)
      rw [← ih fun d hd => hb d (List.mem_cons_of_mem c hd)]
      simpa using Text.infix_append_cons_iff (a := []) (b := cs ++ t) hc

/-- A terminator that does not stand on the first line stands behind that line or nowhere. -/
theorem infix_drop_wholeLine_iff {t : Text} (hline : Text.cut? "*/" (Text.firstLine t) = none) :
    ("*/" : Text) <:+: t.drop (wholeLine t) ↔ ("*/" : Text) <:+: t := by
  rw [Text.cut?_eq_none_iff (by decide)] at hline
  obtain ⟨ending, htake, hend⟩ := take_wholeLine t
  have hsplit := List.take_append_drop (wholeLine t) t
  rw [htake] at hsplit
  rcases hend with rfl | ⟨rfl, hnil⟩
  · rw [List.append_assoc, List.singleton_append] at hsplit
    have hfree : '\n' ∉ ("*/" : Text) := by decide
    have hnew := Text.infix_append_cons_iff (a := Text.firstLine t)
      (b := t.drop (wholeLine t)) hfree
    rw [hsplit, or_iff_right hline] at hnew
    exact hnew.symm
  · rw [hnil, List.append_nil, List.append_nil] at hsplit
    rw [hsplit] at hline
    rw [hnil]
    exact iff_of_false (by decide) hline

end Marker

theorem Mode.exists_block {mode : Mode} (h : ¬mode.Outside) : ∃ indent, mode = .block indent := by
  cases mode with
  | base => exact absurd (.inl rfl) h
  | code => exact absurd (.inr rfl) h
  | block indent => exact ⟨indent, rfl⟩

namespace Scanner
open Marker Segment

theorem plan_of_step_failed {s place : Scanner} {fault : Fault}
    (h : s.step = .failed fault place) : place = s ∧ plan s.mode s.rest = .fail fault := by
  rw [step_eq] at h
  generalize plan s.mode s.rest = p at h
  cases p <;> cases h
  exact ⟨rfl, rfl⟩

theorem run_error_iff {s place : Scanner} {fault : Fault} :
    s.run = .error (fault, place) ↔ Reaches s place ∧ plan place.mode place.rest = .fail fault := by
  constructor
  · intro h
    fun_induction run s with
    | case1 s t hstep ih => exact ⟨.step hstep (ih h).1, (ih h).2⟩
    | case2 s found hstep => cases h
    | case3 s fault place hstep =>
        cases h
        obtain ⟨rfl, hp⟩ := plan_of_step_failed hstep
        exact ⟨.refl _, hp⟩
  · rintro ⟨hr, hp⟩
    rw [hr.run_eq]
    exact run_of_failed (by rw [step_eq, hp]; rfl)

section Plan
variable {t : Text} {fault : Fault}

theorem plan_base_fail_iff : plan .base t = .fail fault ↔
    ∃ flag, fault = .unknownDirective flag ∧ Directs flag t ∧ flag ≠ ("ignore" : Text) ∧
      flag ≠ ("clear" : Text) := by
  constructor
  · intro h
    rw [plan] at h
    unfold planOutside planBase planLineComment at h
    split at h
    · cases h
    · split at h
      · cases h
      · split_ifs at h
        split at h
        · next flag hflag =>
          split_ifs at h with hignore hclear
          cases h
          exact ⟨flag, rfl, directive?_eq_some_iff.mp hflag, hignore, hclear⟩
        · cases h
  · rintro ⟨flag, rfl, hdir, hignore, hclear⟩
    have hflag := directive?_eq_some_iff.mpr hdir
    rw [plan_base_of_opensLine hdir.opensLine, planLineComment, isLicenseTag_of_directive? hflag,
      hflag]
    simp only [Bool.false_eq_true, if_false]
    rw [if_neg hignore, if_neg hclear]

theorem plan_code_fail_iff :
    plan .code t = .fail fault ↔ fault = .unterminatedBlock ∧ Unclosed t := by
  constructor
  · intro h
    rw [plan] at h
    unfold planOutside planCode at h
    split at h
    · cases h
    · split at h
      · cases h
      · split_ifs at h with hopen
        split at h
        · next hnone =>
          cases h
          obtain ⟨behind, hbehind⟩ := Text.opens_iff.mp hopen
          rw [blockComment?, Option.map_eq_none_iff, hbehind,
            Text.cut?_eq_none_iff (by decide)] at hnone
          exact ⟨rfl, behind, hbehind, hnone⟩
        · cases h
  · rintro ⟨rfl, behind, rfl, hfree⟩
    have hnone : blockComment? ("/*" ++ behind) = none := by
      rw [blockComment?, Option.map_eq_none_iff]
      exact (Text.cut?_eq_none_iff (by decide)).mpr hfree
    rw [plan, planOutside_of_ne_nil (by simp)]
    have hliteral : literal? ("/*" ++ behind) = none := rfl
    rw [hliteral]
    simp only [planCode, hnone]
    rfl

theorem plan_block_fail_iff {indent : Nat} :
    plan (.block indent) t = .fail fault ↔ fault = .unterminatedBlock ∧ t = [] := by
  rw [plan]
  unfold planBlock
  split
  · simp [eq_comm]
  · split <;> simp

end Plan

/-- A scanner within a block comment that is never closed. -/
structure Lost (s : Scanner) : Prop where
  inside : ¬s.mode.Outside
  unclosed : ¬("*/" : Text) <:+: s.rest

section Block
variable {text : Text} {s t : Scanner}

/-- The margin and the line of a block comment do not hold its terminator. -/
theorem infix_blockLine_iff {indent : Nat}
    (ht : t = s.skip (marginUpTo indent s.rest))
    (hcut : Text.cut? "*/" (Text.firstLine t.rest) = none) :
    ("*/" : Text) <:+: t.rest.drop (wholeLine t.rest) ↔ ("*/" : Text) <:+: s.rest := by
  have hmargin := infix_blanks_append_iff (t := s.rest.drop (marginUpTo indent s.rest))
    (blanks_take_marginUpTo indent s.rest)
  rw [List.take_append_drop] at hmargin
  rw [infix_drop_wholeLine_iff hcut, ht, skip_rest]
  exact hmargin.symm

theorem Lost.move (hmove : Move s t) (h : Lost s) : Lost t := by
  cases hmove with
  | keep ho _ => exact absurd ho h.inside
  | drop hb _ _ => exact absurd (.inl hb) h.inside
  | clear hb _ _ => exact absurd (.inl hb) h.inside
  | lineComment hb _ _ _ _ _ => exact absurd (.inl hb) h.inside
  | openBlock hb _ => exact absurd (.inl hb) h.inside
  | blockLine _ _ ht hcut =>
      refine ⟨Mode.not_outside_block _, fun hinfix => h.unclosed ?_⟩
      rw [enter_rest, keep_rest] at hinfix
      exact (infix_blockLine_iff ht hcut).mp hinfix
  | @closeBlock indent _ _ body _ _ ht hcut _ =>
      obtain ⟨-, more, hmore⟩ := Text.cut?_firstLine hcut
      have hdrop := (List.drop_suffix (marginUpTo indent s.rest) s.rest).isInfix
      rw [← skip_rest, ← ht, hmore] at hdrop
      refine absurd (List.IsInfix.trans ⟨body, more, ?_⟩ hdrop) h.unclosed
      exact List.append_assoc _ _ _

/-- Whoever is lost comes to the end of the file and fails there. -/
theorem Lost.run_eq (h : Lost s) :
    ∃ place, place.rest = [] ∧ s.run = .error (.unterminatedBlock, place) := by
  cases hrun : s.run with
  | ok segments =>
      obtain ⟨u, hr, hdone⟩ := run_ok_iff.mp hrun
      exact absurd (step_done hdone).1 (hr.invariant Lost.move h).inside
  | error e =>
      obtain ⟨hr, hp⟩ := run_error_iff.mp hrun
      obtain ⟨indent, hm⟩ := Mode.exists_block (hr.invariant Lost.move h).inside
      rw [hm, plan_block_fail_iff] at hp
      exact ⟨e.2, hp.2, by rw [← hp.1]⟩

/-- The scanner behind an opener that is never closed is lost. -/
theorem Lost.of_opener {blanks own : Text} (hm : s.mode = .base) (hb : Blanks blanks)
    (hrest : s.rest = blanks ++ own) (hu : Unclosed own) :
    ∃ t, s.step = .next t ∧ Lost t := by
  obtain ⟨behind, rfl, hfree⟩ := hu
  have hmargin : margin s.rest = blanks.length := by
    rw [hrest]
    exact margin_blanks_append hb (by simp +decide)
  have hopen : opensBlock s.rest := by
    rw [opensBlock, hmargin, hrest, List.drop_left]
    rfl
  have hplan : plan s.mode s.rest = .go (openScript s.rest) := by
    rw [hm, plan_base_of_opensBlock hopen]
  have hbehind : (s.perform (openScript s.rest)).rest = behind := by
    have hextent : extent (openScript s.rest) = blanks.length + 2 := by
      simp [openScript, extent, Op.extent, hmargin]
    rw [perform_rest, hextent, ← List.drop_drop, hrest, List.drop_left]
    rfl
  refine ⟨_, step_next_iff.mpr ⟨_, hplan, rfl⟩, Mode.not_outside_block _, ?_⟩
  rwa [hbehind]

/-- A scanner has come in through an opener, and a terminator behind that opener is still ahead. -/
def Entered (text : Text) (s : Scanner) : Prop :=
  ∃ o margin behind, Reaches (ofText text) o ∧ o.mode = .base ∧ Blanks margin ∧
    o.rest = margin ++ ("/*" ++ behind) ∧
    (("*/" : Text) <:+: behind → ("*/" : Text) <:+: s.rest)

theorem Entered.step (hr : Reaches (ofText text) s) (hstep : s.step = .next t)
    (h : ¬s.mode.Outside → Entered text s) (hout : ¬t.mode.Outside) : Entered text t := by
  cases step_move hstep with
  | keep _ ho => exact absurd ho hout
  | drop _ _ _ => exact absurd (.inl rfl) hout
  | clear _ _ _ => exact absurd (.inl rfl) hout
  | lineComment _ _ _ _ _ _ => exact absurd (.inl rfl) hout
  | closeBlock _ _ _ _ => exact absurd (.inl rfl) hout
  | openBlock hb ho =>
      obtain ⟨behind, hbehind⟩ := Text.opens_iff.mp ho
      refine ⟨s, _, behind, hr, hb, blanks_take_margin s.rest, ?_, fun hinfix => ?_⟩
      · rw [← hbehind, List.take_append_drop]
      · simpa [← List.drop_drop, hbehind] using hinfix
  | blockLine hb _ ht hcut =>
      obtain ⟨o, margin, behind, hro, hob, hm, ho, hahead⟩ :=
        h (by rw [hb]; exact Mode.not_outside_block _)
      refine ⟨o, margin, behind, hro, hob, hm, ho, fun hinfix => ?_⟩
      rw [enter_rest, keep_rest]
      exact (infix_blockLine_iff ht hcut).mpr (hahead hinfix)

theorem Reaches.entered (h : Reaches (ofText text) s) (hm : ¬s.mode.Outside) :
    Entered text s := by
  refine h.invariant_of_step (P := fun s => ¬s.mode.Outside → Entered text s) ?_ Entered.step hm
  exact fun hout => absurd (.inl rfl) hout

end Block

/-- The account of a failure at a place of the run. -/
theorem Reaches.report_eq {text front file : Text} {s : Scanner} (h : Reaches (ofText text) s)
    (ht : text = front ++ s.rest) (fault : Fault) :
    s.report file fault =
      { fault, file, line := 1 + Text.newlines front,
        excerpt := Text.dropEnding "\r" (Text.firstLine s.rest) } := by
  have hfront : s.passed = front := List.append_cancel_right (h.passed_append.trans ht)
  have hline : s.line = 1 + Text.newlines s.passed := (h.dated (.ofText text)).counted
  rw [report, hline, hfront]

end Scanner

theorem Fault.message_injective {f g : Fault} (h : f.message = g.message) : f = g := by
  cases f with
  | unknownDirective flag =>
      cases g with
      | unknownDirective flag' => exact congrArg _ (List.append_cancel_left h)
      | unterminatedBlock => cases h
  | unterminatedBlock =>
      cases g with
      | unknownDirective flag' => cases h
      | unterminatedBlock => rfl

namespace Segment
open Scanner Marker

/-- What is wrong with a text: the rest of the text where its run fails, and the code and the
message of the failure. -/
inductive Flaw (text : Text) : Text → Text → Text → Prop
  /-- An unknown directive at the start of a line. -/
  | directive {s : Scanner} {flag : Text} : Reaches (ofText text) s → s.mode = .base →
      Directs flag s.rest → flag ≠ ("ignore" : Text) → flag ≠ ("clear" : Text) →
      Flaw text s.rest "UNKNOWN_DIRECTIVE" ("unknown solcco line comment flag: " ++ flag)
  /-- A block comment of its own that is never closed. Its failure is found where the file ends. -/
  | comment {s : Scanner} {margin own : Text} : Reaches (ofText text) s → s.mode = .base →
      Blanks margin → s.rest = margin ++ own → Unclosed own →
      Flaw text [] "UNTERMINATED_BLOCK_COMMENT" "non terminated block comment"
  /-- A block comment within a line of code that is never closed. -/
  | embedded {s : Scanner} : Reaches (ofText text) s → s.mode = .code → Unclosed s.rest →
      Flaw text s.rest "UNTERMINATED_BLOCK_COMMENT" "non terminated block comment"

theorem Flaw.of_run {text : Text} {fault : Fault} {place : Scanner}
    (h : (ofText text).run = .error (fault, place)) :
    Flaw text place.rest fault.code fault.message := by
  obtain ⟨hr, hp⟩ := run_error_iff.mp h
  cases hm : place.mode with
  | base =>
      rw [hm, plan_base_fail_iff] at hp
      obtain ⟨flag, rfl, hd, hi, hc⟩ := hp
      exact .directive hr hm hd hi hc
  | code =>
      rw [hm, plan_code_fail_iff] at hp
      obtain ⟨rfl, hu⟩ := hp
      exact .embedded hr hm hu
  | block indent =>
      have hin : ¬place.mode.Outside := by
        rw [hm]
        exact Mode.not_outside_block indent
      rw [hm, plan_block_fail_iff] at hp
      obtain ⟨rfl, hnil⟩ := hp
      obtain ⟨o, margin, behind, hro, hob, hb, ho, hahead⟩ := hr.entered hin
      rw [hnil] at hahead ⊢
      exact .comment hro hob hb ho ⟨behind, rfl, fun hinfix => absurd (hahead hinfix) (by decide)⟩

theorem Flaw.run_eq {text rest code message : Text} (h : Flaw text rest code message) :
    ∃ fault place, (ofText text).run = .error (fault, place) ∧ place.rest = rest ∧
      fault.code = code ∧ fault.message = message := by
  cases h with
  | @directive s flag hr hm hd hi hc =>
      have hp : plan s.mode s.rest = .fail (.unknownDirective flag) := by
        rw [hm]
        exact plan_base_fail_iff.mpr ⟨flag, rfl, hd, hi, hc⟩
      exact ⟨_, s, run_error_iff.mpr ⟨hr, hp⟩, rfl, rfl, rfl⟩
  | @comment s margin own hr hm hb hrest hu =>
      obtain ⟨t, hstep, hlost⟩ := Lost.of_opener hm hb hrest hu
      obtain ⟨place, hnil, hrun⟩ := hlost.run_eq
      exact ⟨_, place, (hr.concat hstep).run_eq.trans hrun, hnil, rfl, rfl⟩
  | @embedded s hr hm hu =>
      have hp : plan s.mode s.rest = .fail .unterminatedBlock := by
        rw [hm]
        exact plan_code_fail_iff.mpr ⟨rfl, hu⟩
      exact ⟨_, s, run_error_iff.mpr ⟨hr, hp⟩, rfl, rfl, rfl⟩

theorem scan_eq_error {file text : Text} {e : ParseError} : scan file text = .error e ↔
    ∃ fault place, (ofText text).run = .error (fault, place) ∧ e = place.report file fault := by
  unfold scan
  cases (ofText text).run with
  | ok segments => simp [Except.mapError]
  | error p =>
      simp only [Except.mapError, Except.error.injEq]
      constructor
      · rintro rfl
        exact ⟨_, _, rfl, rfl⟩
      · rintro ⟨fault, place, rfl, rfl⟩
        rfl

/-- A text is not segmented if and only if it has a flaw, and the error is then the one of that
flaw: its file, code and message, the line of the place where the run fails, and what is left of that
line. Behind the opener of a comment of its own that is never closed the scanner stays within that
comment, so that this opener is the last one. -/
theorem scan_error_exact (file text : Text) :
    (∀ e : ParseError, scan file text = .error e ↔
      ∃ front rest, text = front ++ rest ∧ Flaw text rest e.fault.code e.fault.message ∧
        e.file = file ∧ e.line = 1 + Text.newlines front ∧
        e.excerpt = Text.dropEnding "\r" (Text.firstLine rest)) ∧
    ∀ (s t u : Scanner) (margin own : Text), Reaches (ofText text) s → s.mode = .base →
      Blanks margin → s.rest = margin ++ own → Unclosed own → s.step = .next t → Reaches t u →
      ∃ indent, u.mode = .block indent := by
  refine ⟨fun e => ⟨fun h => ?_, ?_⟩, ?_⟩
  · obtain ⟨fault, place, hrun, rfl⟩ := scan_eq_error.mp h
    have hr := (run_error_iff.mp hrun).1
    have htext := hr.passed_append.symm
    rw [hr.report_eq htext]
    exact ⟨_, _, htext, .of_run hrun, rfl, rfl, rfl⟩
  · rintro ⟨front, rest, htext, hflaw, hfile, hline, hexcerpt⟩
    obtain ⟨fault, place, hrun, rfl, -, hmessage⟩ := hflaw.run_eq
    refine scan_eq_error.mpr ⟨fault, place, hrun, ?_⟩
    have hr := (run_error_iff.mp hrun).1
    rw [hr.report_eq htext, Fault.message_injective hmessage, ← hfile, ← hline, ← hexcerpt]
  · intro s t u margin own hr hm hb hrest hu hstep hreach
    obtain ⟨t', hstep', hlost⟩ := Lost.of_opener hm hb hrest hu
    obtain rfl := Step.next.inj (hstep.symm.trans hstep')
    exact Mode.exists_block (hreach.invariant Lost.move hlost).inside

example : scan "a.sol" "a /* b */\n  /*/ c\n * /\r\n" =
    .error { fault := .unterminatedBlock, file := "a.sol", line := 4, excerpt := [] } := by
  with_unfolding_all rfl

end Segment

end Marginalia
