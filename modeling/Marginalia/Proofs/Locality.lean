import Marginalia.Proofs.Choice

/-!
# What stands behind a fence does not matter in front of it

A fence is a line feed or a quote. The scanner looks far ahead in two places only: for the end of a
string literal and for the end of a comment inside code. As long as a step stays in front of the
fence, neither of them was found behind it, so the text there may be exchanged for another one,
provided that a quote which stays open to the end still does so. What the scanner does in front of
the fence is then the same, step by step.
-/
namespace Marginalia

namespace Marker

def IsQuote (c : Char) : Prop := c = '"' ∨ c = '\''

/-- Behind a line feed or a quote one text may stand for another: a literal that no quote closes in
the first one is not closed in the second one. -/
structure Fence (e : Char) (z z' : Text) : Prop where
  stop : e = '\n' ∨ IsQuote e
  unclosed : ∀ q before, IsQuote q → closingQuote q before (e :: z) = none →
    closingQuote q before (e :: z') = none

/-- A number of characters that does not go over the fence. A line feed may be among them. -/
def Within (a : Text) (e : Char) (n : Nat) : Prop := n ≤ a.length ∨ e = '\n' ∧ n ≤ a.length + 1

section Fence
variable {e : Char} {a z z' : Text}

theorem Fence.isStop (h : Fence e z z') : isStop e := by
  rcases h.stop with rfl | rfl | rfl <;> decide

theorem Fence.ne_return (h : Fence e z z') : e ≠ '\r' := by
  rcases h.stop with rfl | rfl | rfl <;> decide

theorem Within.le {n : Nat} (h : Within a e n) : n ≤ (a ++ [e]).length := by
  rw [List.length_append, List.length_singleton]
  rcases h with h | ⟨_, h⟩ <;> omega

theorem Within.mono {m n : Nat} (h : Within a e n) (hle : m ≤ n) : Within a e m := by
  rcases h with h | ⟨he, h⟩
  · exact .inl (hle.trans h)
  · exact .inr ⟨he, hle.trans h⟩

theorem Within.drop {m n : Nat} (hw : Within a e (m + n)) (hm : m ≤ a.length) :
    Within (a.drop m) e n := by
  rw [Within, List.length_drop]
  rcases hw with hw | ⟨he, hw⟩
  · exact .inl (by omega)
  · exact .inr ⟨he, by omega⟩

/-- A line that ends in front of the fence, or with it, has its line feed there. -/
theorem Within.newline_mem {n : Nat} (h : Within a e n) (hn : a.length < n) : '\n' ∈ a ++ [e] := by
  rcases h with h | ⟨rfl, _⟩
  · omega
  · simp

theorem closingQuote_append_of_some {q before : Char} {n : Nat}
    (h : closingQuote q before a = some n) (y : Text) :
    closingQuote q before (a ++ y) = some n := by
  induction a generalizing before n with
  | nil => cases h
  | cons c cs ih =>
      rw [List.cons_append, closingQuote]
      rw [closingQuote] at h
      split at h
      · next hc => rwa [if_pos hc]
      · next hc =>
        obtain ⟨m, hm, rfl⟩ := Option.map_eq_some_iff.mp h
        rw [if_neg hc, ih hm, Option.map_some]

theorem closingQuote_pos {q before : Char} {n : Nat} (h : closingQuote q before a = some n) :
    0 < n := by
  cases a with
  | nil => cases h
  | cons c cs =>
      rw [closingQuote] at h
      split at h
      · cases h
        exact Nat.one_pos
      · obtain ⟨m, _, rfl⟩ := Option.map_eq_some_iff.mp h
        exact Nat.succ_pos m

theorem closingQuote_of_append {q before : Char} {n : Nat} {y : Text}
    (h : closingQuote q before (a ++ y) = some n) (hn : n ≤ a.length) :
    closingQuote q before a = some n := by
  induction a generalizing before n with
  | nil =>
      have hpos := closingQuote_pos h
      simp only [List.length_nil] at hn
      omega
  | cons c cs ih =>
      rw [List.cons_append, closingQuote] at h
      rw [closingQuote]
      split at h
      · next hc => rwa [if_pos hc]
      · next hc =>
        obtain ⟨m, hm, rfl⟩ := Option.map_eq_some_iff.mp h
        rw [if_neg hc, ih hm (by simpa using hn), Option.map_some]

/-- A quote stays open over two texts iff it does so over each of them. -/
theorem closingQuote_append_eq_none {q before : Char} {y : Text} :
    closingQuote q before (a ++ y) = none ↔
      closingQuote q before a = none ∧ closingQuote q (a.getLastD before) y = none := by
  induction a generalizing before with
  | nil => simp [closingQuote]
  | cons c cs ih =>
      rw [List.cons_append, closingQuote, closingQuote]
      split
      · simp
      · rw [Option.map_eq_none_iff, Option.map_eq_none_iff, ih, List.getLastD_cons]

theorem closingQuote_append_of_notMem {q before : Char} {t y : Text} (h : q ∉ t) :
    closingQuote q before (t ++ y) = (closingQuote q (t.getLastD before) y).map (· + t.length) := by
  induction t generalizing before with
  | nil => simp
  | cons c cs ih =>
      obtain ⟨hc, hcs⟩ := not_or.mp (mt List.mem_cons.mpr h)
      rw [List.cons_append, closingQuote, if_neg fun hq => hc hq.1.symm, ih hcs, Option.map_map,
        List.getLastD_cons, List.length_cons]
      rfl

theorem append_fence (a z : Text) (e : Char) : a ++ e :: z = (a ++ [e]) ++ z := by
  rw [List.append_assoc, List.singleton_append]

theorem literal?_cons {q : Char} (hq : IsQuote q) (t : Text) :
    literal? (q :: t) = (closingQuote q q t).map (· + 1) := if_pos hq

theorem literal?_cons_of_not {c : Char} (hc : ¬IsQuote c) (t : Text) : literal? (c :: t) = none :=
  if_neg hc

theorem literal?_local_none (h : Fence e z z') (hn : literal? (a ++ e :: z) = none) :
    literal? (a ++ e :: z') = none := by
  cases a with
  | nil =>
      by_cases hq : IsQuote e
      · rw [List.nil_append, literal?_cons hq, Option.map_eq_none_iff] at hn ⊢
        -- Behind a backslash the quote does not close, so it can be read as if it stood behind one.
        have hopen : ∀ t, closingQuote e '\\' (e :: t) = (closingQuote e e t).map (· + 1) :=
          fun t => if_neg fun hc => hc.2 rfl
        have hu := h.unclosed e '\\' hq
        rw [hopen, hopen, Option.map_eq_none_iff, Option.map_eq_none_iff] at hu
        exact hu hn
      · exact literal?_cons_of_not hq z'
  | cons c cs =>
      by_cases hq : IsQuote c
      · rw [List.cons_append, literal?_cons hq, Option.map_eq_none_iff,
          closingQuote_append_eq_none] at hn ⊢
        exact ⟨hn.1, h.unclosed c _ hq hn.2⟩
      · exact literal?_cons_of_not hq _

theorem literal?_local_some {n : Nat} (hl : literal? (a ++ e :: z) = some n)
    (hw : Within a e n) : literal? (a ++ e :: z') = some n := by
  have hle := hw.le
  rw [append_fence] at hl ⊢
  obtain ⟨c, cs, hp⟩ := List.exists_cons_of_ne_nil (List.concat_ne_nil e a)
  rw [hp, List.cons_append] at hl ⊢
  rw [hp, List.length_cons] at hle
  by_cases hq : IsQuote c
  · rw [literal?_cons hq] at hl ⊢
    obtain ⟨m, hm, rfl⟩ := Option.map_eq_some_iff.mp hl
    have hclose := closingQuote_of_append hm (Nat.le_of_succ_le_succ hle)
    rw [closingQuote_append_of_some hclose, Option.map_some]
  · rw [literal?_cons_of_not hq] at hl
    cases hl

theorem blockComment?_local {n : Nat} (hb : blockComment? (a ++ e :: z) = some n)
    (hw : Within a e n) : blockComment? (a ++ e :: z') = some n := by
  have hle := hw.le
  rw [append_fence] at hb ⊢
  generalize a ++ [e] = p at hb hle ⊢
  rw [blockComment?] at hb ⊢
  obtain ⟨⟨body, more⟩, hcut, rfl⟩ := Option.map_eq_some_iff.mp hb
  simp only at hle
  have hlen : 2 ≤ p.length := by omega
  rw [List.drop_append_of_le_length hlen] at hcut ⊢
  have hroom : body.length + ("*/" : Text).length ≤ (p.drop 2).length := by
    have htwo : ("*/" : Text).length = 2 := rfl
    rw [List.length_drop]
    omega
  obtain ⟨r, hr⟩ := Text.cut?_of_append hcut (by decide) hroom
  rw [Text.cut?_append hr (by decide), Option.map_some]

theorem lineEnd_cons (c : Char) (t : Text) : lineEnd (c :: t) =
    if c = '\n' then 1 else if c = '\r' ∧ t.head? = some '\n' then 2 else 0 := by
  by_cases hn : c = '\n'
  · subst hn
    rfl
  · by_cases hr : c = '\r' ∧ t.head? = some '\n'
    · obtain ⟨rfl, hhead⟩ := hr
      obtain ⟨y, rfl⟩ := List.head?_eq_some_iff.mp hhead
      rfl
    · rw [if_neg hn, if_neg hr]
      unfold lineEnd
      split
      · next h =>
        obtain ⟨rfl, rfl⟩ := List.cons.inj h
        exact absurd ⟨rfl, rfl⟩ hr
      · next h => exact absurd (List.cons.inj h).1 hn
      · rfl

theorem lineEnd_local (he : e ≠ '\r') (a z z' : Text) :
    lineEnd (a ++ e :: z) = lineEnd (a ++ e :: z') := by
  cases a with
  | nil => simp [lineEnd_cons, he]
  | cons c cs =>
      have hhead : (cs ++ e :: z).head? = (cs ++ e :: z').head? := by cases cs <;> rfl
      rw [List.cons_append, List.cons_append, lineEnd_cons, lineEnd_cons, hhead]

/-- If a line ends in front of the fence or with it, the text starts with that line, whatever stands
behind the fence. -/
theorem exists_line (h : '\n' ∈ a ++ [e]) :
    ∃ line more, '\n' ∉ line ∧ ∀ z, a ++ e :: z = line ++ '\n' :: (more ++ z) := by
  rcases Text.eq_line_or_append (a ++ [e]) with hfree | ⟨line, more, hline, heq⟩
  · exact absurd h hfree
  · refine ⟨line, more, hline, fun z => ?_⟩
    rw [append_fence, heq, List.append_assoc, List.cons_append]

/-- A line that does not end in front of the fence goes over it. -/
theorem length_lt_wholeLine (h : '\n' ∉ a ++ [e]) (z : Text) :
    a.length < wholeLine (a ++ e :: z) := by
  have hle : (a ++ [e]).length ≤ lineLength (a ++ e :: z) := by
    rw [append_fence a z, lineLength, Text.firstLine_append h]
    exact (List.prefix_append _ _).length_le
  rw [List.length_append, List.length_singleton] at hle
  rw [wholeLine]
  omega

theorem newline_mem_of_wholeLine (hw : Within a e (wholeLine (a ++ e :: z))) :
    '\n' ∈ a ++ [e] := by
  by_contra hfree
  exact hfree (hw.newline_mem (length_lt_wholeLine hfree z))

end Fence

end Marker

namespace Scanner
open Marker

section Plans
variable {e : Char} {a z z' line : Text} {script : List Op}

theorem commentScript_local (h : '\n' ∉ line) (ho : opensLine line) (y y' : Text) :
    commentScript (line ++ '\n' :: y) = commentScript (line ++ '\n' :: y') := by
  have hstop : isStop '\n' := by decide
  have hfree : '\n' ∉ line.drop (lineCommentLead line) := fun hm => h (List.mem_of_mem_drop hm)
  have hbody : (Text.dropEnding "\r" (line.drop (lineCommentLead line))).length ≤
      (line.drop (lineCommentLead line)).length := (Text.dropEnding_isPrefix _ _).length_le
  simp only [commentScript, lineCommentLead_append_stop hstop ho,
    List.drop_append_of_le_length (lineCommentLead_le ho), Text.firstLine_append_newline hfree,
    List.drop_append_of_le_length hbody]
  rw [lineEnd_local (by decide) _ y y']

theorem planLineComment_local (h : '\n' ∉ line) (ho : opensLine line) (y y' : Text) :
    planLineComment (line ++ '\n' :: y) = planLineComment (line ++ '\n' :: y') := by
  have hstop : isStop '\n' := by decide
  have hwhole : wholeLine (line ++ '\n' :: y) = wholeLine (line ++ '\n' :: y') := by
    rw [wholeLine_append_newline h, wholeLine_append_newline h]
  simp only [planLineComment, isLicenseTag_append_stop hstop, directive?_append_newline h,
    dropScript, clearScript, hwhole, commentScript_local h ho y y']

theorem extent_dropScript (t : Text) : extent (dropScript t) = wholeLine t := by
  simp [extent, dropScript, Op.extent]

theorem extent_clearScript (t : Text) : extent (clearScript t) = wholeLine t := by
  simp [extent, clearScript, Op.extent]

/-- A line comment takes all of its line but for a return at the end of the file. -/
theorem length_lt_commentScript (h : '\n' ∉ a ++ [e]) (he : e ≠ '\r')
    (ho : opensLine (a ++ e :: z)) : a.length < extent (commentScript (a ++ e :: z)) := by
  obtain ⟨t, ht⟩ : ∃ t, t = a ++ e :: z := ⟨_, rfl⟩
  rw [← ht] at ho ⊢
  obtain ⟨margin, gap, hm, hg, hlead⟩ := take_lineCommentLead ho
  have hfree : '\n' ∉ t.take (lineCommentLead t) := by
    rw [hlead]
    simp only [List.mem_append, not_or]
    exact ⟨⟨hm.newline_notMem, by decide⟩, hg.newline_notMem⟩
  have hline : Text.firstLine t =
      t.take (lineCommentLead t) ++ Text.firstLine (t.drop (lineCommentLead t)) := by
    rw [← Text.firstLine_append hfree, List.take_append_drop]
  have hfence : Text.firstLine t = a ++ [e] ++ Text.firstLine z := by
    rw [ht, append_fence, Text.firstLine_append h]
  have hlen := congrArg List.length (hline.symm.trans hfence)
  simp only [List.length_append, List.length_singleton,
    List.length_take_of_le (lineCommentLead_le ho)] at hlen
  have hext : lineCommentLead t +
      (Text.dropEnding "\r" (Text.firstLine (t.drop (lineCommentLead t)))).length ≤
      extent (commentScript t) := by
    simp only [extent, commentScript, Op.extent]
    omega
  rcases Text.eq_dropEnding_or "\r" (Text.firstLine (t.drop (lineCommentLead t))) with hb | hb
  · rw [← hb] at hext
    omega
  · have hlen' := congrArg List.length hb
    have hone : ("\r" : Text).length = 1 := rfl
    rw [List.length_append, hone] at hlen'
    have hz : Text.firstLine z ≠ [] := by
      intro hnil
      rw [hb, hfence, hnil, List.append_nil, ← List.append_assoc] at hline
      exact he (List.singleton_inj.mp (List.append_inj' hline rfl).2)
    have hpos := List.length_pos_iff.mpr hz
    omega

/-- A line comment whose step stays in front of the fence ends there. -/
theorem planLineComment_newline_mem (he : e ≠ '\r') (ho : opensLine (a ++ e :: z))
    (hp : planLineComment (a ++ e :: z) = .go script) (hw : Within a e (extent script)) :
    '\n' ∈ a ++ [e] := by
  by_contra hfree
  have hwhole := length_lt_wholeLine hfree z
  refine hfree (hw.newline_mem ?_)
  cases planLineComment_cases hp with
  | drop _ => rwa [extent_dropScript]
  | clear _ => rwa [extent_clearScript]
  | comment _ => exact length_lt_commentScript hfree he ho

theorem planBase_local (h : Fence e z z') (hp : planBase (a ++ e :: z) = .go script)
    (hw : Within a e (extent script)) : planBase (a ++ e :: z') = .go script := by
  have hhead : (a ++ e :: z).head? = (a ++ e :: z').head? := by cases a <;> rfl
  unfold planBase at hp ⊢
  rw [opensBlock_append_stop h.isStop, opensLine_append_stop h.isStop] at hp ⊢
  rw [hhead] at hp
  split_ifs at hp ⊢ with hblock hline
  · rw [← hp]
    simp only [openScript, margin_append_stop h.isStop]
  · have hmem := planLineComment_newline_mem h.ne_return
      (by rwa [opensLine_append_stop h.isStop]) hp hw
    obtain ⟨line, more, hfree, heq⟩ := exists_line hmem
    have ho : opensLine line := by
      rwa [← opensLine_append_stop h.isStop (y := z), heq,
        opensLine_append_stop (by decide)] at hline
    rw [heq] at hp ⊢
    rwa [planLineComment_local hfree ho _ (more ++ z)]
  all_goals exact hp

theorem planCode_local (h : Fence e z z') (hp : planCode (a ++ e :: z) = .go script)
    (hw : Within a e (extent script)) : planCode (a ++ e :: z') = .go script := by
  have hmarker : ∀ {marker : Text}, marker.any isStop = false → ∀ y,
      Text.opens marker (a ++ e :: y) = Text.opens marker a :=
    fun hm y => Text.opens_append_cons (notMem_of_isStop h.isStop hm)
  unfold planCode at hp ⊢
  rw [hmarker (by decide), hmarker (by decide), lineEnd_local h.ne_return a z z'] at hp
  rw [hmarker (by decide), hmarker (by decide)]
  split_ifs at hp ⊢ with hblock hline hend
  · cases hb : blockComment? (a ++ e :: z) with
    | none =>
        rw [hb] at hp
        cases hp
    | some n =>
        rw [hb] at hp
        cases hp
        rw [blockComment?_local hb (hw.mono (Nat.le_add_right _ _))]
  · cases hp
    obtain ⟨line, more, hfree, heq⟩ :=
      exists_line (newline_mem_of_wholeLine (hw.mono (Nat.le_add_right _ _)))
    simp only [heq, wholeLine_append_newline hfree]
  · exact hp
  · exact hp

theorem trailing_local (h : Fence e z z') (c : Text) :
    trailing (c ++ e :: z) = trailing (c ++ e :: z') := by
  simp only [trailing, margin_append_stop h.isStop, drop_margin_append]
  rw [lineEnd_local h.ne_return _ z z']

section Block
variable {b body behind : Text}

/-- A terminator that ends in front of the fence leaves room for itself there. -/
theorem room_of_cut? (hcut : Text.cut? "*/" (Text.firstLine (b ++ e :: z)) = some (body, behind))
    (hw : Within b e (body.length + 2)) : body.length + 2 ≤ b.length := by
  rcases hw with hw | ⟨rfl, hw⟩
  · exact hw
  · have hlen := congrArg List.length (Text.cut?_eq_some hcut)
    have htwo : ("*/" : Text).length = 2 := rfl
    simp only [List.length_append, htwo] at hlen
    rcases Text.eq_line_or_append b with hfree | ⟨line, more, hfree, rfl⟩
    · rw [Text.firstLine_append_newline hfree] at hlen
      omega
    · rw [List.append_assoc, List.cons_append, Text.firstLine_append_newline hfree] at hlen
      rw [List.length_append, List.length_cons]
      omega

theorem cut?_firstLine_local {x : Text}
    (hcut : Text.cut? "*/" (Text.firstLine (b ++ x)) = some (body, behind))
    (hroom : body.length + 2 ≤ b.length) (x' : Text) :
    ∃ behind', Text.cut? "*/" (Text.firstLine (b ++ x')) = some (body, behind') := by
  rcases Text.eq_line_or_append b with hfree | ⟨line, more, hfree, rfl⟩
  · rw [Text.firstLine_append hfree] at hcut ⊢
    obtain ⟨r, hr⟩ := Text.cut?_of_append hcut (by decide) hroom
    exact ⟨_, Text.cut?_append hr (by decide) _⟩
  · rw [List.append_assoc, List.cons_append, Text.firstLine_append_newline hfree] at hcut ⊢
    exact ⟨_, hcut⟩

theorem planBlock_local (h : Fence e z z') {indent : Nat}
    (hp : planBlock indent (a ++ e :: z) = .go script) (hw : Within a e (extent script)) :
    planBlock indent (a ++ e :: z') = .go script := by
  have hmargin : ∀ y, marginUpTo indent (a ++ e :: y) = marginUpTo indent a := fun y => by
    rw [marginUpTo, margin_append_stop h.isStop, marginUpTo]
  have hle : marginUpTo indent a ≤ a.length := (Nat.min_le_right _ _).trans (margin_le_length a)
  have hdrop : ∀ y, (a ++ y).drop (marginUpTo indent a) = a.drop (marginUpTo indent a) ++ y :=
    fun y => List.drop_append_of_le_length hle
  rw [planBlock_of_ne_nil (by simp), hmargin, hdrop] at hp ⊢
  split at hp
  · next body behind hcut =>
    cases hp
    have hbody : marginUpTo indent a + (body.length + 2) ≤
        extent (closeScript indent (a ++ e :: z) body) := by
      simp only [extent, closeScript, Op.extent, hmargin]
      omega
    have hroom := room_of_cut? hcut ((hw.mono hbody).drop hle)
    obtain ⟨behind', hcut'⟩ := cut?_firstLine_local hcut hroom (e :: z')
    have htail : ∀ y, ((a.drop (marginUpTo indent a) ++ e :: y).drop body.length).drop 2 =
        (a.drop (marginUpTo indent a)).drop (body.length + 2) ++ e :: y := fun y => by
      rw [List.drop_drop, List.drop_append_of_le_length hroom]
    rw [hcut']
    simp only [closeScript, hmargin, hdrop, htail]
    rw [trailing_local h]
  · cases hp
    have hwhole : Within (a.drop (marginUpTo indent a)) e
        (wholeLine (a.drop (marginUpTo indent a) ++ e :: z)) := by
      apply Within.drop (hw.mono _) hle
      simp [extent, blockLineScript, Op.extent, hmargin, hdrop]
    obtain ⟨line, more, hfree, heq⟩ := exists_line (newline_mem_of_wholeLine hwhole)
    next hcut =>
    rw [heq, Text.firstLine_append_newline hfree] at hcut ⊢
    rw [hcut]
    simp only [blockLineScript, hmargin, hdrop, heq, wholeLine_append_newline hfree]

end Block

/-- What the scanner does in front of a fence does not depend on what stands behind it. -/
theorem plan_local (h : Fence e z z') {mode : Mode} (hp : plan mode (a ++ e :: z) = .go script)
    (hw : Within a e (extent script)) : plan mode (a ++ e :: z') = .go script := by
  have hoff : ∀ {p p' : Plan}, (p = .go script → p' = .go script) →
      planOutside (a ++ e :: z) p = .go script → planOutside (a ++ e :: z') p' = .go script := by
    intro p p' hpp hp
    rw [planOutside_of_ne_nil (by simp)] at hp ⊢
    cases hl : literal? (a ++ e :: z) with
    | none =>
        rw [hl] at hp
        rw [literal?_local_none h hl]
        exact hpp hp
    | some n =>
        rw [hl] at hp
        cases hp
        rw [literal?_local_some hl (hw.mono (Nat.le_add_right _ _))]
  cases mode with
  | base => exact hoff (fun hp => planBase_local h hp hw) hp
  | code => exact hoff (fun hp => planCode_local h hp hw) hp
  | block indent => exact planBlock_local h hp hw

end Plans

end Scanner

end Marginalia
