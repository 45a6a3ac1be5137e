import Marginalia.Proofs.Exchange

/-!
# A step looks no further than it goes

The text behind a place may be cut off. What the markers find in front of the place they still find
there, and what they did not find in the longer text they do not find in the shorter one. A step
that stays in front of the place is therefore the same step without the text behind it. There is one
exception: a line comment gives up one return at its end, and where the text ends with two of them,
it gives up the other one if the last is cut off.
-/
namespace Marginalia

theorem Text.opens_append {marker a : Text} (h : Text.opens marker a) (y : Text) :
    Text.opens marker (a ++ y) := by
  obtain ⟨behind, rfl⟩ := Text.opens_iff.mp h
  rw [List.append_assoc, Text.opens_iff]
  exact ⟨behind ++ y, rfl⟩

theorem Text.opens_of_append {marker a y : Text} (h : Text.opens marker (a ++ y))
    (hle : marker.length ≤ a.length) : Text.opens marker a := by
  obtain ⟨behind, hb⟩ := Option.isSome_iff_exists.mp h
  obtain ⟨r, hr⟩ := Text.dropOpening?_of_append hb hle
  rw [Text.opens, hr, Option.isSome_some]

namespace Marker

section Cut
variable {a y : Text}

theorem margin_eq_min (a y : Text) : margin a = min a.length (margin (a ++ y)) := by
  have hle := margin_le_length a
  unfold margin at hle ⊢
  rw [List.takeWhile_append]
  split
  · next h =>
    rw [List.length_append]
    omega
  · omega

theorem margin_of_append (h : margin (a ++ y) ≤ a.length) : margin a = margin (a ++ y) := by
  have hmin := margin_eq_min a y
  omega

theorem marginUpTo_of_append {limit : Nat} (h : marginUpTo limit (a ++ y) ≤ a.length) :
    marginUpTo limit a = marginUpTo limit (a ++ y) := by
  have hmin := margin_eq_min a y
  unfold marginUpTo at h ⊢
  omega

/-- A marker behind the margin stays there when the text is continued. -/
theorem opens_margin_append {marker : Text} (hm : marker ≠ [])
    (h : Text.opens marker (a.drop (margin a))) (y : Text) :
    Text.opens marker ((a ++ y).drop (margin (a ++ y))) := by
  obtain ⟨behind, hb⟩ := Text.opens_iff.mp h
  have hlen := congrArg List.length hb
  have hpos := List.length_pos_iff.mpr hm
  rw [List.length_drop, List.length_append] at hlen
  have hmargin : margin (a ++ y) = margin a := by
    have hmin := margin_eq_min a y
    omega
  rw [hmargin, drop_margin_append]
  exact Text.opens_append h y

/-- A marker that ends in front of the place is found without the text behind it. -/
theorem opens_margin_of_append {marker : Text}
    (h : Text.opens marker ((a ++ y).drop (margin (a ++ y))))
    (hle : margin (a ++ y) + marker.length ≤ a.length) :
    Text.opens marker (a.drop (margin a)) := by
  have hmargin := margin_of_append (a := a) (y := y) (by omega)
  rw [← hmargin, drop_margin_append] at h
  refine Text.opens_of_append h ?_
  rw [List.length_drop]
  omega

theorem lineEnd_of_append (h : lineEnd (a ++ y) ≤ a.length) : lineEnd a = lineEnd (a ++ y) := by
  cases a with
  | nil =>
      rw [List.length_nil, Nat.le_zero] at h
      rw [h]
      rfl
  | cons c cs =>
      rw [List.cons_append, lineEnd_cons] at h ⊢
      rw [lineEnd_cons]
      cases cs with
      | nil =>
          simp only [List.nil_append, List.length_singleton, List.head?_nil, reduceCtorEq,
            and_false, if_false] at h ⊢
          split_ifs at h ⊢
          · rfl
          · omega
          · rfl
      | cons d ds => rfl

theorem literal?_of_append_none (h : literal? (a ++ y) = none) : literal? a = none := by
  cases a with
  | nil => rfl
  | cons c cs =>
      by_cases hq : IsQuote c
      · rw [List.cons_append, literal?_cons hq, Option.map_eq_none_iff,
          closingQuote_append_eq_none] at h
        rw [literal?_cons hq, Option.map_eq_none_iff]
        exact h.1
      · exact literal?_cons_of_not hq cs

theorem literal?_of_append {n : Nat} (h : literal? (a ++ y) = some n) (hn : n ≤ a.length) :
    literal? a = some n := by
  cases a with
  | nil =>
      have hpos := Scanner.literal?_pos h
      rw [List.length_nil] at hn
      omega
  | cons c cs =>
      by_cases hq : IsQuote c
      · rw [List.cons_append, literal?_cons hq] at h
        obtain ⟨m, hm, rfl⟩ := Option.map_eq_some_iff.mp h
        rw [literal?_cons hq, closingQuote_of_append hm (Nat.le_of_succ_le_succ hn),
          Option.map_some]
      · rw [List.cons_append, literal?_cons_of_not hq] at h
        cases h

theorem blockComment?_of_append {n : Nat} (h : blockComment? (a ++ y) = some n)
    (hn : n ≤ a.length) : blockComment? a = some n := by
  rw [blockComment?] at h ⊢
  obtain ⟨⟨body, more⟩, hcut, rfl⟩ := Option.map_eq_some_iff.mp h
  simp only at hn
  have hlen : 2 ≤ a.length := by omega
  have htwo : ("*/" : Text).length = 2 := rfl
  rw [List.drop_append_of_le_length hlen] at hcut
  have hroom : body.length + ("*/" : Text).length ≤ (a.drop 2).length := by
    rw [List.length_drop]
    omega
  obtain ⟨r, hr⟩ := Text.cut?_of_append hcut (by decide) hroom
  rw [hr, Option.map_some]

/-- A line that ends in front of the place has its line feed there. -/
theorem newline_mem_of_append (hy : y ≠ []) (h : wholeLine (a ++ y) ≤ a.length) : '\n' ∈ a := by
  by_contra hfree
  rw [wholeLine, lineLength, Text.firstLine_append hfree, List.length_append] at h
  have hline : Text.firstLine y = [] := List.eq_nil_of_length_eq_zero (by omega)
  have hend : lineEnd ((a ++ y).drop (a ++ Text.firstLine y).length) = 0 := by
    rw [List.length_append]
    omega
  rw [hline, List.append_nil, List.drop_left] at hend
  have hpos := wholeLine_pos hy
  rw [wholeLine, lineLength, hline, List.length_nil, List.drop_zero, hend] at hpos
  exact Nat.lt_irrefl 0 hpos

/-- The opener of a line comment stands on the first line. -/
theorem margin_add_two_le_wholeLine {t : Text} (h : opensLine t) : margin t + 2 ≤ wholeLine t := by
  have hlen := margin_add_two_le_of_opensLine h
  have hfree : '\n' ∉ t.take (margin t + 2) := by
    rw [take_lineOpener h, List.mem_append, not_or]
    exact ⟨(blanks_take_margin t).newline_notMem, by decide⟩
  have hline := Text.firstLine_append (b := t.drop (margin t + 2)) hfree
  rw [List.take_append_drop] at hline
  rw [wholeLine, lineLength, hline, List.length_append, List.length_take_of_le hlen]
  omega

theorem exists_line_of_mem (h : '\n' ∈ a) :
    ∃ line more, '\n' ∉ line ∧ a = line ++ '\n' :: more :=
  (Text.eq_line_or_append a).resolve_left fun hfree => hfree h

end Cut

end Marker

namespace Scanner
open Marker

section Cut
variable {a y : Text} {script : List Op}

theorem trailing_of_append (h : trailing (a ++ y) ≤ a.length) :
    trailing a = trailing (a ++ y) := by
  by_cases hle : margin (a ++ y) ≤ a.length
  · have hmargin := margin_of_append hle
    have hdrop := drop_margin_append a y
    simp only [trailing, ← hmargin, hdrop] at h ⊢
    have hend : lineEnd (a.drop (margin a) ++ y) ≤ (a.drop (margin a)).length := by
      rw [List.length_drop]
      split at h <;> omega
    rw [lineEnd_of_append hend]
  · have hmargin : margin a = a.length := by
      have hmin := margin_eq_min a y
      omega
    have hnone : trailing a = 0 := by
      simp only [trailing, hmargin, List.drop_length]
      rfl
    rw [hnone]
    simp only [trailing] at h ⊢
    split at h
    · next hend => rw [if_pos hend]
    · omega

/-- A line comment takes its line feed. -/
theorem extent_commentScript (ho : opensLine a) (h : '\n' ∈ a) :
    extent (commentScript a) = wholeLine a := by
  obtain ⟨line, more, hfree, rfl⟩ := exists_line_of_mem h
  have hstop : isStop '\n' := by decide
  have hline : opensLine line := by rwa [opensLine_append_stop hstop] at ho
  have hlead := lineCommentLead_le hline
  have hwords : '\n' ∉ line.drop (lineCommentLead line) :=
    fun hm => hfree (List.mem_of_mem_drop hm)
  have hlen : (line.drop (lineCommentLead line)).length = line.length - lineCommentLead line :=
    List.length_drop
  rw [wholeLine_append_newline hfree]
  simp only [commentScript, extent, Op.extent, lineCommentLead_append_stop hstop hline,
    List.drop_append_of_le_length hlead, Text.firstLine_append_newline hwords]
  generalize line.drop (lineCommentLead line) = words at hlen
  rcases Text.eq_dropEnding_or "\r" words with hw | hw
  · rw [← hw, List.drop_left]
    simp only [lineEnd]
    omega
  · obtain ⟨body, hbody⟩ : ∃ body, body = Text.dropEnding "\r" words := ⟨_, rfl⟩
    rw [← hbody] at hw ⊢
    rw [hw, List.append_assoc, List.drop_left]
    rw [hw, List.length_append] at hlen
    have hone : ("\r" : Text).length = 1 := rfl
    have hend : lineEnd (("\r" : Text) ++ '\n' :: more) = 2 := rfl
    omega

/-- A line comment at the end of the file has no line end, even if it ends in a return. -/
theorem commentScript_of_notMem (h : '\n' ∉ a) :
    commentScript a =
      [.flush .code, .begin, .skip (lineCommentLead a),
        .keep (Text.dropEnding "\r" (a.drop (lineCommentLead a))).length, .skip 0,
        .flush .lineComment, .enter .base] := by
  have hwords : '\n' ∉ a.drop (lineCommentLead a) := fun hm => h (List.mem_of_mem_drop hm)
  have hend : ∀ words : Text,
      lineEnd (words.drop (Text.dropEnding "\r" words).length) = 0 := by
    intro words
    obtain ⟨body, hbody⟩ : ∃ body, body = Text.dropEnding "\r" words := ⟨_, rfl⟩
    rcases Text.eq_dropEnding_or "\r" words with hw | hw
    · rw [← hw, List.drop_length]
      rfl
    · rw [← hbody] at hw ⊢
      rw [hw, List.drop_left]
      rfl
  simp only [commentScript, Text.firstLine_of_notMem hwords, hend]

/-- A line comment at the end of the file leaves at most one character. -/
theorem length_le_extent_commentScript (ho : opensLine a) (h : '\n' ∉ a) :
    a.length ≤ extent (commentScript a) + 1 := by
  have hlead := lineCommentLead_le ho
  have hlen : (a.drop (lineCommentLead a)).length = a.length - lineCommentLead a :=
    List.length_drop
  have hone : ("\r" : Text).length = 1 := rfl
  simp only [commentScript_of_notMem h, extent, Op.extent]
  rcases Text.eq_dropEnding_or "\r" (a.drop (lineCommentLead a)) with hw | hw
  · rw [← hw]
    omega
  · have hlen' := congrArg List.length hw
    rw [List.length_append] at hlen'
    omega

/-- A line comment that stays in front of the place ends there, or leaves a single return. -/
theorem newline_mem_or_return (hy : y ≠ []) (ho : opensLine (a ++ y))
    (h : extent (commentScript (a ++ y)) ≤ a.length) : '\n' ∈ a ∨ y = ['\r'] := by
  by_cases hmem : '\n' ∈ a ++ y
  · rw [extent_commentScript ho hmem] at h
    exact .inl (newline_mem_of_append hy h)
  · right
    have hle := length_le_extent_commentScript ho hmem
    obtain ⟨e, z, rfl⟩ := List.exists_cons_of_ne_nil hy
    rw [List.length_append, List.length_cons] at hle
    obtain rfl : z = [] := List.eq_nil_of_length_eq_zero (by omega)
    by_contra he
    have hlt := length_lt_commentScript hmem (fun hr => he (by rw [hr])) ho
    omega

/-- A line comment in front of the return that ends the file takes all but that return. -/
theorem commentScript_return (ho : opensLine a) (h : '\n' ∉ a) :
    commentScript (a ++ ['\r']) =
      [.flush .code, .begin, .skip (lineCommentLead a),
        .keep (a.drop (lineCommentLead a)).length, .skip 0, .flush .lineComment,
        .enter .base] := by
  have hcut : Text.dropEnding "\r" (a.drop (lineCommentLead a) ++ ['\r']) =
      a.drop (lineCommentLead a) := Text.dropEnding_append _ _
  rw [commentScript_of_notMem (by simpa using h),
    lineCommentLead_append_stop (show isStop '\r' by decide) ho,
    List.drop_append_of_le_length (lineCommentLead_le ho), hcut]

/-- Without the return behind it a line comment is the same, unless it ends in another one. -/
theorem commentScript_append_return (ho : opensLine a) (h : '\n' ∉ a)
    (ha : a.getLast? ≠ some '\r') : commentScript (a ++ ['\r']) = commentScript a := by
  have hsame : Text.dropEnding "\r" (a.drop (lineCommentLead a)) = a.drop (lineCommentLead a) := by
    rcases Text.eq_dropEnding_or "\r" (a.drop (lineCommentLead a)) with hw | hw
    · exact hw.symm
    · exfalso
      apply ha
      rw [← List.take_append_drop (lineCommentLead a) a, hw, ← List.append_assoc]
      exact List.getLast?_concat
  rw [commentScript_return ho h, commentScript_of_notMem h, hsame]

theorem planLineComment_of_append (hy : y ≠ []) (ho : opensLine (a ++ y)) (hoa : opensLine a)
    (hr : extent script = a.length → ¬(a.getLast? = some '\r' ∧ y = ['\r']))
    (hp : planLineComment (a ++ y) = .go script) (hle : extent script ≤ a.length) :
    planLineComment a = .go script := by
  by_cases hmem : '\n' ∈ a
  · obtain ⟨line, more, hfree, rfl⟩ := exists_line_of_mem hmem
    rw [opensLine_append_stop (by decide)] at hoa
    rwa [List.append_assoc, List.cons_append, planLineComment_local hfree hoa _ more] at hp
  · have hwhole : a.length < wholeLine (a ++ y) := by
      by_contra hnot
      exact hmem (newline_mem_of_append hy (Nat.le_of_not_lt hnot))
    unfold planLineComment at hp ⊢
    split_ifs at hp with hlicense
    · cases hp
      rw [extent_dropScript] at hle
      omega
    · cases hd : directive? (a ++ y) with
      | some flag =>
          rw [hd] at hp
          simp only at hp
          split_ifs at hp
          · cases hp
            rw [extent_dropScript] at hle
            omega
          · cases hp
            rw [extent_clearScript] at hle
            omega
      | none =>
          rw [hd] at hp
          cases hp
          obtain rfl := (newline_mem_or_return hy ho hle).resolve_left hmem
          have hlen := length_le_extent_commentScript ho (by simpa using hmem)
          rw [List.length_append, List.length_singleton] at hlen
          have hlast : a.getLast? ≠ some '\r' := fun ha => hr (by omega) ⟨ha, rfl⟩
          rw [isLicenseTag_append_stop (by decide)] at hlicense
          rw [directive?_append_return hmem] at hd
          rw [if_neg hlicense, hd, commentScript_append_return hoa hmem hlast]

theorem planBase_of_append (ha : a ≠ []) (hy : y ≠ [])
    (hr : extent script = a.length → ¬(a.getLast? = some '\r' ∧ y = ['\r']))
    (hp : planBase (a ++ y) = .go script) (hle : extent script ≤ a.length) :
    planBase a = .go script := by
  have hhead : (a ++ y).head? = a.head? := by
    cases a with
    | nil => exact absurd rfl ha
    | cons c cs => rfl
  have hblock : opensBlock a → opensBlock (a ++ y) := fun h => opens_margin_append (by decide) h y
  have hline : opensLine a → opensLine (a ++ y) := fun h => opens_margin_append (by decide) h y
  unfold planBase at hp
  split at hp
  · next hb =>
    cases hp
    have hroom : margin (a ++ y) + 2 ≤ a.length := by
      simpa [openScript, extent, Op.extent] using hle
    have hmargin := margin_of_append (a := a) (y := y) (by omega)
    have hopen : opensBlock a := opens_margin_of_append hb hroom
    rw [planBase, if_pos hopen, openScript, openScript, hmargin]
  · next hb =>
    split at hp
    · next hl =>
      have hroom : margin (a ++ y) + 2 ≤ a.length := by
        refine le_trans ?_ hle
        cases planLineComment_cases hp with
        | drop _ =>
            rw [extent_dropScript]
            exact margin_add_two_le_wholeLine hl
        | clear _ =>
            rw [extent_clearScript]
            exact margin_add_two_le_wholeLine hl
        | comment _ =>
            simp only [commentScript, extent, Op.extent, lineCommentLead]
            omega
      have hopen : opensLine a := opens_margin_of_append hl hroom
      rw [planBase, if_neg (mt hblock hb), if_pos hopen]
      exact planLineComment_of_append hy hl hopen hr hp hle
    · next hl =>
      rw [planBase, if_neg (mt hblock hb), if_neg (mt hline hl), ← hhead]
      exact hp

theorem planCode_of_append (ha : a ≠ []) (hy : y ≠ []) (hp : planCode (a ++ y) = .go script)
    (hle : extent script ≤ a.length) : planCode a = .go script := by
  have hblock : Text.opens "/*" a → Text.opens "/*" (a ++ y) := fun h => Text.opens_append h y
  have hline : Text.opens "//" a → Text.opens "//" (a ++ y) := fun h => Text.opens_append h y
  unfold planCode at hp
  split_ifs at hp with hb hl hend
  · cases hcomment : blockComment? (a ++ y) with
    | none =>
        rw [hcomment] at hp
        cases hp
    | some n =>
        rw [hcomment] at hp
        cases hp
        have hn : n ≤ a.length := hle
        have htwo : 2 ≤ n := by
          obtain ⟨_, _, rfl⟩ := Option.map_eq_some_iff.mp hcomment
          exact (by decide : 2 ≤ 4).trans (Nat.le_add_left _ _)
        rw [planCode, if_pos (Text.opens_of_append hb (htwo.trans hn)),
          blockComment?_of_append hcomment hn]
  · cases hp
    have hmem : '\n' ∈ a := newline_mem_of_append hy hle
    obtain ⟨line, more, hfree, rfl⟩ := exists_line_of_mem hmem
    have hopen : Text.opens "//" (line ++ '\n' :: more) := by
      rw [List.append_assoc, List.cons_append, Text.opens_append_cons (by decide)] at hl
      exact Text.opens_append hl _
    rw [planCode, if_neg (mt hblock hb), if_pos hopen, List.append_assoc, List.cons_append,
      wholeLine_append_newline hfree, wholeLine_append_newline hfree]
  · cases hp
    have hnone : lineEnd a = 0 := by
      rw [lineEnd_of_append (y := y) (by rw [hend]; exact Nat.zero_le _), hend]
    rw [planCode, if_neg (mt hblock hb), if_neg (mt hline hl), if_pos hnone]
  · cases hp
    have hsame : lineEnd a = lineEnd (a ++ y) := lineEnd_of_append hle
    rw [planCode, if_neg (mt hblock hb), if_neg (mt hline hl), hsame, if_neg hend]

theorem planBlock_of_append {indent : Nat} (ha : a ≠ []) (hy : y ≠ [])
    (hp : planBlock indent (a ++ y) = .go script) (hle : extent script ≤ a.length) :
    planBlock indent a = .go script := by
  obtain ⟨m, hm⟩ : ∃ m, m = marginUpTo indent (a ++ y) := ⟨_, rfl⟩
  have hmle : m ≤ a.length := by
    refine le_trans ?_ hle
    have hscript : plan (.block indent) (a ++ y) = .go script := hp
    rcases plan_block hscript with rfl | ⟨body, rfl⟩ <;>
      simp [extent, Op.extent, blockLineScript, closeScript, hm]
  have hmargin : marginUpTo indent a = m := by
    rw [hm] at hmle ⊢
    exact marginUpTo_of_append hmle
  have hdrop : (a ++ y).drop m = a.drop m ++ y := List.drop_append_of_le_length hmle
  rw [planBlock_of_ne_nil (by simp [hy]), ← hm, hdrop] at hp
  rw [planBlock_of_ne_nil ha, hmargin]
  split at hp
  · next body behind hcut =>
    cases hp
    simp only [extent, closeScript, Op.extent, ← hm, hdrop] at hle
    have hroom : body.length + 2 ≤ (a.drop m).length := by
      rw [List.length_drop]
      omega
    obtain ⟨behind', hcut'⟩ := cut?_firstLine_local hcut hroom []
    rw [List.append_nil] at hcut'
    have htail : ((a.drop m ++ y).drop body.length).drop 2 =
        ((a.drop m).drop body.length).drop 2 ++ y := by
      rw [List.drop_drop, List.drop_drop, List.drop_append_of_le_length hroom]
    have htrail : trailing (((a.drop m).drop body.length).drop 2) =
        trailing (((a.drop m ++ y).drop body.length).drop 2) := by
      rw [htail] at hle ⊢
      apply trailing_of_append
      simp only [List.length_drop]
      omega
    rw [hcut']
    simp only [closeScript, hmargin, ← hm, hdrop, htrail]
  · next hcut =>
    cases hp
    simp only [extent, blockLineScript, Op.extent, ← hm, hdrop] at hle
    have hwhole : wholeLine (a.drop m ++ y) ≤ (a.drop m).length := by
      rw [List.length_drop]
      omega
    obtain ⟨line, more, hfree, hline⟩ := exists_line_of_mem (newline_mem_of_append hy hwhole)
    simp only [blockLineScript, hmargin, ← hm, hdrop, hline, List.append_assoc, List.cons_append,
      Text.firstLine_append_newline hfree, wholeLine_append_newline hfree] at hcut ⊢
    rw [hcut]

/-- A step that stays in front of a place is the same step without the text behind the place, unless
it ends there between two returns. -/
theorem plan_of_append {mode : Mode} (ha : a ≠ [])
    (hr : extent script = a.length → ¬(a.getLast? = some '\r' ∧ y = ['\r']))
    (hp : plan mode (a ++ y) = .go script) (hle : extent script ≤ a.length) :
    plan mode a = .go script := by
  by_cases hy : y = []
  · rwa [hy, List.append_nil] at hp
  have hoff : ∀ {p p' : Plan}, (p = .go script → p' = .go script) →
      planOutside (a ++ y) p = .go script → planOutside a p' = .go script := by
    intro p p' hpp hp
    rw [planOutside_of_ne_nil (by simp [ha])] at hp
    rw [planOutside_of_ne_nil ha]
    cases hl : literal? (a ++ y) with
    | none =>
        rw [hl] at hp
        rw [literal?_of_append_none hl]
        exact hpp hp
    | some n =>
        rw [hl] at hp
        cases hp
        rw [literal?_of_append hl hle]
  cases mode with
  | base => exact hoff (fun hp => planBase_of_append ha hy hr hp hle) hp
  | code => exact hoff (fun hp => planCode_of_append ha hy hp hle) hp
  | block indent => exact planBlock_of_append ha hy hp hle

end Cut

end Scanner

end Marginalia
