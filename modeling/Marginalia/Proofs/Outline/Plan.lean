import Marginalia.Proofs.Locality
import Marginalia.Proofs.Outline.Lines

/-!
# Lines of code and other lines

In a text with line comments only nothing reaches over the end of a line. At the start of a line the
scanner sees what the line alone shows, and a line of code is kept as a whole, though in many steps:
its blanks one by one, then the characters up to a comment marker or the line end.
-/
namespace Marginalia

/-- A text without quotes, carriage returns and openers of block comments. -/
structure LineCommentsOnly (t : Text) : Prop where
  double_notMem : '"' ∉ t
  single_notMem : '\'' ∉ t
  return_notMem : '\r' ∉ t
  noBlock : Text.occursIn "/*" t = false

namespace LineCommentsOnly
open Marker

variable {a t : Text}

theorem of_append (h : LineCommentsOnly (a ++ t)) : LineCommentsOnly t where
  double_notMem hm := h.double_notMem (List.mem_append_right a hm)
  single_notMem hm := h.single_notMem (List.mem_append_right a hm)
  return_notMem hm := h.return_notMem (List.mem_append_right a hm)
  noBlock := by
    have hnone : Text.cut? "/*" (a ++ t) = none := Option.isNone_iff_eq_none.mp (by
      simpa [Text.occursIn] using h.noBlock)
    rw [Text.occursIn, Text.cut?_append_eq_none hnone]
    rfl

theorem opens_eq_false (h : LineCommentsOnly t) : Text.opens "/*" t = false := by
  have hnone : Text.cut? "/*" ([] ++ t) = none := Option.isNone_iff_eq_none.mp (by
    simpa [Text.occursIn] using h.noBlock)
  exact Text.opens_of_cut?_eq_none hnone (by decide)

theorem opensBlock_eq_false (h : LineCommentsOnly t) : opensBlock t = false := by
  rw [← List.take_append_drop (margin t) t] at h
  exact h.of_append.opens_eq_false

theorem literal?_eq_none (h : LineCommentsOnly t) : literal? t = none := by
  cases t with
  | nil => rfl
  | cons c cs =>
      apply literal?_cons_of_not
      rintro (rfl | rfl)
      · exact h.double_notMem (List.mem_cons_self)
      · exact h.single_notMem (List.mem_cons_self)

end LineCommentsOnly

namespace Marker

theorem opensLine_cons {c : Char} (hc : isHorizontal c) (t : Text) :
    opensLine (c :: t) = opensLine t := by
  rw [opensLine, opensLine, drop_margin, drop_margin, List.dropWhile_cons, if_pos hc]

section Line
variable {body ending more : Text}

theorem opensLine_line (he : EndsLine ending more) :
    opensLine (body ++ ending ++ more) = opensLine body := by
  rcases he with rfl | ⟨rfl, rfl⟩
  · rw [List.append_assoc, List.singleton_append, opensLine_append_stop (by decide)]
  · simp

theorem isLicenseTag_line (he : EndsLine ending more) :
    isLicenseTag (body ++ ending ++ more) = isLicenseTag body := by
  rcases he with rfl | ⟨rfl, rfl⟩
  · rw [List.append_assoc, List.singleton_append, isLicenseTag_append_stop (by decide)]
  · simp

theorem directive?_line (hb : '\n' ∉ body) (he : EndsLine ending more) :
    directive? (body ++ ending ++ more) = directive? body := by
  rcases he with rfl | ⟨rfl, rfl⟩
  · rw [List.append_assoc, List.singleton_append, directive?_append_newline hb]
  · simp

theorem lineCommentLead_line (he : EndsLine ending more) (ho : opensLine body) :
    lineCommentLead (body ++ ending ++ more) = lineCommentLead body := by
  rcases he with rfl | ⟨rfl, rfl⟩
  · rw [List.append_assoc, List.singleton_append, lineCommentLead_append_stop (by decide) ho]
  · simp

end Line

end Marker

namespace Scanner
open Marker Segment

section CodeLine
variable {body ending more : Text} {s : Scanner}

theorem keep_enter_keep (s : Scanner) (m n : Nat) (mode mode' : Mode) :
    (((s.keep m).enter mode).keep n).enter mode' = (s.keep (m + n)).enter mode' := by
  rw [enter_keep, keep_add]
  rfl

/-- In the middle of a line of code, what is left of the line is kept. -/
theorem reaches_code (hb : '\n' ∉ body) (he : EndsLine ending more) (hm : s.mode = .code)
    (hs : s.rest = body ++ ending ++ more) (ht : LineCommentsOnly s.rest) :
    ∃ mode : Mode, mode.Outside ∧ (more ≠ [] → mode = .base) ∧
      Reaches s ((s.keep (body ++ ending).length).enter mode) := by
  induction body generalizing s with
  | nil =>
      rcases he with rfl | ⟨rfl, rfl⟩
      · refine ⟨.base, .inl rfl, fun _ => rfl, .step ?_ (.refl _)⟩
        rw [step_next_iff]
        refine ⟨[.keep 1, .enter .base], ?_, rfl⟩
        rw [hs] at ht ⊢
        simp only [hm, plan, planOutside, List.nil_append, List.singleton_append] at ht ⊢
        rw [ht.literal?_eq_none]
        rfl
      · refine ⟨.code, .inr rfl, fun h => absurd rfl h, ?_⟩
        have hself : (s.keep ([] ++ [] : Text).length).enter .code = s := by
          rw [keep_eq_self rfl, enter, ← hm]
        rw [hself]
        exact .refl s
  | cons c cs ih =>
      obtain ⟨hc, hcs⟩ := not_or.mp (mt List.mem_cons.mpr hb)
      by_cases ho : Text.opens "//" s.rest
      · refine ⟨.base, .inl rfl, fun _ => rfl, .step ?_ (.refl _)⟩
        rw [step_next_iff]
        refine ⟨[.keep (wholeLine s.rest), .enter .base], ?_, ?_⟩
        · have hne : s.rest ≠ [] := by simp [hs]
          rw [hm, plan, planOutside_of_ne_nil hne, ht.literal?_eq_none]
          simp only [planCode, ht.opens_eq_false, ho, if_true, Bool.false_eq_true, if_false]
        · rw [hs, wholeLine_line hb he]
          rfl
      · have hstep : s.step = .next ((s.keep 1).enter .code) := by
          rw [step_next_iff]
          refine ⟨[.keep 1, .enter .code], ?_, rfl⟩
          have hne : s.rest ≠ [] := by simp [hs]
          have hend : lineEnd s.rest = 0 := by
            have hr : c ≠ '\r' := by
              rintro rfl
              exact ht.return_notMem (by simp [hs])
            rw [hs, List.cons_append, List.cons_append, lineEnd_cons, if_neg (Ne.symm hc),
              if_neg fun h => hr h.1]
          rw [hm, plan, planOutside_of_ne_nil hne, ht.literal?_eq_none]
          simp only [planCode, ht.opens_eq_false, ho, hend, if_true, Bool.false_eq_true, if_false]
        have hrest : ((s.keep 1).enter .code).rest = cs ++ ending ++ more := by simp [hs]
        have htail : LineCommentsOnly ((s.keep 1).enter .code).rest := by
          rw [hrest]
          rw [hs, List.cons_append, List.cons_append, ← List.singleton_append] at ht
          exact ht.of_append
        obtain ⟨mode, hout, hbase, hreach⟩ := ih hcs rfl hrest htail
        rw [keep_enter_keep, Nat.add_comm] at hreach
        exact ⟨mode, hout, hbase, .step hstep hreach⟩

theorem step_code_base (hm : s.mode = .base) (hne : s.rest ≠ []) (ht : LineCommentsOnly s.rest)
    (ho : opensLine s.rest = false) :
    s.step = .next ((s.keep 1).enter (if s.rest.head?.any isSpace then .base else .code)) := by
  rw [step_next_iff]
  refine ⟨[.keep 1, .enter (if s.rest.head?.any isSpace then .base else .code)], ?_, rfl⟩
  rw [hm, plan, planOutside_of_ne_nil hne, ht.literal?_eq_none]
  simp only [planBase, ht.opensBlock_eq_false, ho, Bool.false_eq_true, if_false]

/-- A line of code is kept as a whole. -/
theorem reaches_codeLine (hb : '\n' ∉ body) (he : EndsLine ending more)
    (hne : body ++ ending ≠ []) (hm : s.mode = .base)
    (hs : s.rest = body ++ ending ++ more) (ht : LineCommentsOnly s.rest)
    (ho : opensLine s.rest = false) :
    ∃ mode : Mode, mode.Outside ∧ (more ≠ [] → mode = .base) ∧
      Reaches s ((s.keep (body ++ ending).length).enter mode) := by
  induction body generalizing s with
  | nil =>
      rcases he with rfl | ⟨rfl, rfl⟩
      · have hstep := step_code_base hm (by simp [hs]) ht ho
        rw [hs] at hstep
        exact ⟨.base, .inl rfl, fun _ => rfl, .step hstep (.refl _)⟩
      · exact absurd rfl hne
  | cons c cs ih =>
      obtain ⟨hc, hcs⟩ := not_or.mp (mt List.mem_cons.mpr hb)
      have hstep := step_code_base hm (by simp [hs]) ht ho
      have hhead : s.rest.head? = some c := by rw [hs]; rfl
      have hrest : ∀ mode : Mode, ((s.keep 1).enter mode).rest = cs ++ ending ++ more := by
        simp [hs]
      have htail : ∀ mode : Mode, LineCommentsOnly ((s.keep 1).enter mode).rest := by
        intro mode
        rw [hrest]
        rw [hs, List.cons_append, List.cons_append, ← List.singleton_append] at ht
        exact ht.of_append
      rw [hhead, Option.any_some] at hstep
      cases hspace : isSpace c with
      | false =>
          rw [hspace, if_neg (by decide)] at hstep
          obtain ⟨mode, hout, hbase, hreach⟩ := reaches_code hcs he rfl (hrest .code) (htail .code)
          rw [keep_enter_keep, Nat.add_comm] at hreach
          exact ⟨mode, hout, hbase, .step hstep hreach⟩
      | true =>
          rw [hspace, if_pos rfl] at hstep
          by_cases hlast : cs ++ ending = []
          · obtain ⟨rfl, rfl⟩ := List.append_eq_nil_iff.mp hlast
            exact ⟨.base, .inl rfl, fun _ => rfl, .step hstep (.refl _)⟩
          · have hr : c ≠ '\r' := by
              rintro rfl
              exact ht.return_notMem (by simp [hs])
            have hblank : isHorizontal c := by
              simp [isHorizontal, hspace, hr, Ne.symm hc]
            have ho' : opensLine ((s.keep 1).enter .base).rest = false := by
              rw [hrest]
              rwa [hs, List.cons_append, List.cons_append, opensLine_cons hblank] at ho
            obtain ⟨mode, hout, hbase, hreach⟩ := ih hcs hlast rfl (hrest .base) (htail .base) ho'
            rw [keep_enter_keep, Nat.add_comm] at hreach
            exact ⟨mode, hout, hbase, .step hstep hreach⟩

end CodeLine

/-- The scripts and the faults at a line of its own, by the class of the line. -/
inductive LinePlan (t body : Text) : LineClass → Prop
  | code : opensLine t = false → LinePlan t body .code
  | dropped : plan .base t = .go (dropScript t) → LinePlan t body .dropped
  | clear : plan .base t = .go (clearScript t) → LinePlan t body .clear
  | comment : opensLine body → plan .base t = .go (commentScript t) →
      LinePlan t body (.comment (body.drop (lineCommentLead body)))
  | unknown {flag : Text} : plan .base t = .fail (.unknownDirective flag) →
      LinePlan t body (.unknown flag)

theorem linePlan {body ending more : Text} (hb : '\n' ∉ body) (he : EndsLine ending more)
    (hne : body ++ ending ≠ []) (ht : LineCommentsOnly (body ++ ending ++ more)) :
    LinePlan (body ++ ending ++ more) body (LineClass.ofLine body) := by
  rw [LineClass.ofLine_eq hb]
  cases ho : opensLine body with
  | false => exact .code ((opensLine_line he).trans ho)
  | true =>
      have hplan : plan .base (body ++ ending ++ more) =
          planLineComment (body ++ ending ++ more) := by
        have hrest : body ++ ending ++ more ≠ [] := fun h => hne (List.append_eq_nil_iff.mp h).1
        rw [plan, planOutside_of_ne_nil hrest, ht.literal?_eq_none]
        simp only [planBase, ht.opensBlock_eq_false, opensLine_line he, ho, Bool.false_eq_true,
          if_false, if_true]
      rw [planLineComment, isLicenseTag_line he, directive?_line hb he] at hplan
      rw [if_pos rfl]
      split_ifs at hplan ⊢ with hlicense
      · exact .dropped hplan
      · cases hd : directive? body with
        | none =>
            rw [hd] at hplan
            exact .comment ho hplan
        | some flag =>
            rw [hd] at hplan
            simp only at hplan ⊢
            split_ifs at hplan ⊢ with hignore hclear
            · exact .dropped hplan
            · exact .clear hplan
            · exact .unknown hplan

end Scanner

end Marginalia
