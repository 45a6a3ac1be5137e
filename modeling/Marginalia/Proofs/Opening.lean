import Marginalia.Proofs.Foresight

/-!
# In front of a block comment

Where a block comment opens behind its margin, another one may open instead, behind a margin that is
not shorter. The text in front of it does not notice. Blanks there belong to the margin in both
cases, a line end is never completed by the margin or the opener, and a slash right in front of the
opener makes a line comment only where there is no margin between them. A quote that stays open over
the first comment has to stay open over the second one; that is the one thing to be asked of what
the comments hold.
-/
namespace Marginalia

theorem Text.opens_append_of_le {marker b : Text} (hle : marker.length ≤ b.length) (y : Text) :
    Text.opens marker (b ++ y) = Text.opens marker b := by
  rw [Bool.eq_iff_iff]
  exact ⟨fun h => Text.opens_of_append h hle, fun h => Text.opens_append h y⟩

namespace Marker

/-- A quote that stays open over the first text stays open over the second one. -/
def StaysOpen (t t' : Text) : Prop :=
  ∀ q before, IsQuote q → closingQuote q before t = none → closingQuote q before t' = none

/-- Texts with a block comment at their front, the second of which may stand for the first. -/
structure OpensAlike (y y' : Text) : Prop where
  opens : opensBlock y
  opens' : opensBlock y'
  head : y'.head? = some '/' → y.head? = some '/'
  unclosed : StaysOpen y y'

section Opening
variable {a b y y' : Text}

theorem exists_cons_of_opensBlock (h : opensBlock y) :
    ∃ c t, y = c :: t ∧ c ≠ '\n' ∧ c ≠ '\r' ∧ c ≠ '*' := by
  cases y with
  | nil => exact absurd h (by decide)
  | cons c t =>
      refine ⟨c, t, rfl, ?_⟩
      by_cases hc : isHorizontal c
      · refine ⟨?_, ?_, ?_⟩ <;>
        · rintro rfl
          exact absurd hc (by decide)
      · have hmargin : margin (c :: t) = 0 := by simp [margin, hc]
        rw [opensBlock, hmargin, List.drop_zero, Text.opens_iff] at h
        obtain ⟨behind, hb⟩ := h
        obtain ⟨rfl, -⟩ := List.cons.inj hb
        decide

theorem ne_nil_of_opensBlock (h : opensBlock y) : y ≠ [] := by
  obtain ⟨c, t, rfl, -⟩ := exists_cons_of_opensBlock h
  exact List.cons_ne_nil c t

theorem lineEnd_append_opening (h : opensBlock y) (a : Text) : lineEnd (a ++ y) = lineEnd a := by
  obtain ⟨c, t, rfl, hn, hr, -⟩ := exists_cons_of_opensBlock h
  cases a with
  | nil =>
      rw [List.nil_append, lineEnd_cons, if_neg hn, if_neg fun h => hr h.1]
      rfl
  | cons d ds =>
      cases ds with
      | nil => simp [lineEnd_cons, hn]
      | cons e es => rw [List.cons_append, lineEnd_cons, lineEnd_cons]; rfl

/-- A text with another character than blanks has its own margin, whatever follows. -/
theorem margin_append_of_not_blanks (ha : ¬Blanks a) (y : Text) : margin (a ++ y) = margin a := by
  have hlt : margin a ≠ a.length := by
    intro hall
    have hblanks := blanks_take_margin a
    rw [hall, List.take_length] at hblanks
    exact ha hblanks
  have hmin := margin_eq_min a y
  have hle := margin_le_length a
  omega

theorem drop_margin_ne_nil (ha : ¬Blanks a) : a.drop (margin a) ≠ [] := by
  intro hnil
  apply ha
  rw [← List.take_append_drop (margin a) a, hnil, List.append_nil]
  exact blanks_take_margin a

theorem margin_append_of_blanks (ha : Blanks a) (y : Text) :
    margin (a ++ y) = a.length + margin y := by
  rw [margin, List.takeWhile_append_of_pos ha, List.length_append]
  rfl

theorem opensBlock_append_of_blanks (ha : Blanks a) (h : opensBlock y) : opensBlock (a ++ y) := by
  rwa [opensBlock, margin_append_of_blanks ha, List.drop_length_add_append]

theorem opens_block_append (hb : b ≠ []) (h : opensBlock y) :
    Text.opens "/*" (b ++ y) = Text.opens "/*" b := by
  obtain ⟨c, t, rfl, -, -, hc⟩ := exists_cons_of_opensBlock h
  cases b with
  | nil => exact absurd rfl hb
  | cons d ds =>
      cases ds with
      | nil => simp [Text.opens, Text.dropOpening?, Ne.symm hc]
      | cons e es =>
          have htwo : ("/*" : Text).length ≤ (d :: e :: es).length := Nat.le_add_left 2 es.length
          exact Text.opens_append_of_le htwo _

theorem opensBlock_append (ha : ¬Blanks a) (h : opensBlock y) :
    opensBlock (a ++ y) = opensBlock a := by
  rw [opensBlock, margin_append_of_not_blanks ha, drop_margin_append,
    opens_block_append (drop_margin_ne_nil ha) h, opensBlock]

/-- A line comment may open with the slash of the opener, but not across a margin. -/
theorem OpensAlike.opens_line (h : OpensAlike y y') (hb : b ≠ []) (ho : Text.opens "//" (b ++ y')) :
    Text.opens "//" (b ++ y) := by
  cases b with
  | nil => exact absurd rfl hb
  | cons d ds =>
      cases ds with
      | nil =>
          obtain ⟨behind, hbehind⟩ := Text.opens_iff.mp ho
          obtain ⟨rfl, hy'⟩ := List.cons.inj hbehind
          obtain ⟨t, rfl⟩ := List.head?_eq_some_iff.mp (h.head (congrArg List.head? hy'))
          rfl
      | cons e es =>
          have htwo : ("//" : Text).length ≤ (d :: e :: es).length := Nat.le_add_left 2 es.length
          rwa [Text.opens_append_of_le htwo] at ho ⊢

theorem OpensAlike.opensLine (h : OpensAlike y y') (ha : ¬Blanks a) (ho : opensLine (a ++ y')) :
    opensLine (a ++ y) := by
  rw [Marker.opensLine, margin_append_of_not_blanks ha, drop_margin_append] at ho ⊢
  exact h.opens_line (drop_margin_ne_nil ha) ho

theorem literal?_append {n : Nat} (h : literal? a = some n) (y : Text) :
    literal? (a ++ y) = some n := by
  cases a with
  | nil => cases h
  | cons c cs =>
      by_cases hq : IsQuote c
      · rw [literal?_cons hq] at h
        obtain ⟨m, hm, rfl⟩ := Option.map_eq_some_iff.mp h
        rw [List.cons_append, literal?_cons hq, closingQuote_append_of_some hm, Option.map_some]
      · rw [literal?_cons_of_not hq] at h
        cases h

theorem OpensAlike.literal?_eq_none (h : OpensAlike y y') (ha : a ≠ [])
    (hl : literal? (a ++ y) = none) : literal? (a ++ y') = none := by
  cases a with
  | nil => exact absurd rfl ha
  | cons c cs =>
      by_cases hq : IsQuote c
      · rw [List.cons_append, literal?_cons hq, Option.map_eq_none_iff,
          closingQuote_append_eq_none] at hl ⊢
        exact ⟨hl.1, h.unclosed c _ hq hl.2⟩
      · exact literal?_cons_of_not hq _

theorem blockComment?_append {n : Nat} (h : blockComment? a = some n) (ha : 2 ≤ a.length)
    (y : Text) : blockComment? (a ++ y) = some n := by
  rw [blockComment?] at h ⊢
  obtain ⟨⟨body, more⟩, hcut, rfl⟩ := Option.map_eq_some_iff.mp h
  rw [List.drop_append_of_le_length ha, Text.cut?_append hcut (by decide), Option.map_some]

end Opening

end Marker

namespace Scanner
open Marker

section Opening
variable {a y y' : Text} {script : List Op}

theorem trailing_append_opening (h : opensBlock y) (a : Text) :
    trailing (a ++ y) = trailing a := by
  by_cases ha : Blanks a
  · have hend : lineEnd (y.drop (margin y)) = 0 := by
      obtain ⟨behind, hb⟩ := Text.opens_iff.mp h
      rw [hb]
      rfl
    have hmargin : margin a = a.length := by
      rw [margin, List.takeWhile_eq_self_iff.mpr ha]
    simp only [trailing, margin_append_of_blanks ha, List.drop_length_add_append, hend, hmargin,
      List.drop_length]
    rfl
  · simp only [trailing, margin_append_of_not_blanks ha, drop_margin_append,
      lineEnd_append_opening h]

/-- A line comment that stays in front of the opener ends there. -/
theorem newline_mem_of_planLineComment (h : opensBlock y) (ho : opensLine (a ++ y))
    (hp : planLineComment (a ++ y) = .go script) (hle : extent script ≤ a.length) : '\n' ∈ a := by
  have hy := ne_nil_of_opensBlock h
  cases planLineComment_cases hp with
  | drop _ =>
      rw [extent_dropScript] at hle
      exact newline_mem_of_append hy hle
  | clear _ =>
      rw [extent_clearScript] at hle
      exact newline_mem_of_append hy hle
  | comment _ =>
      refine (newline_mem_or_return hy ho hle).resolve_right ?_
      rintro rfl
      exact absurd h (by decide)

theorem planBase_opening (h : OpensAlike y y') (hp : planBase (a ++ y) = .go script)
    (hle : extent script ≤ a.length) (ha : a ≠ []) : planBase (a ++ y') = .go script := by
  have hblanks : ¬Blanks a := by
    intro hblanks
    rw [planBase, if_pos (opensBlock_append_of_blanks hblanks h.opens)] at hp
    cases hp
    simp only [extent, openScript, Op.extent, margin_append_of_blanks hblanks] at hle
    omega
  have hhead : (a ++ y').head? = (a ++ y).head? := by
    cases a with
    | nil => exact absurd rfl ha
    | cons c cs => rfl
  unfold planBase at hp ⊢
  rw [opensBlock_append hblanks h.opens] at hp
  rw [opensBlock_append hblanks h.opens', hhead]
  split at hp
  · next hblock =>
    rw [if_pos hblock, ← hp]
    simp only [openScript, margin_append_of_not_blanks hblanks]
  · next hblock =>
    split at hp
    · next hline =>
      obtain ⟨line, more, hfree, rfl⟩ :=
        exists_line_of_mem (newline_mem_of_planLineComment h.opens hline hp hle)
      rw [List.append_assoc, List.cons_append] at hp hline ⊢
      rw [opensLine_append_stop (by decide)] at hline
      rw [if_neg hblock, opensLine_append_stop (by decide), if_pos hline,
        planLineComment_local hfree hline _ (more ++ y), hp]
    · next hline => rw [if_neg hblock, if_neg (mt (h.opensLine hblanks) hline), hp]

theorem planCode_opening (h : OpensAlike y y') (hp : planCode (a ++ y) = .go script)
    (hle : extent script ≤ a.length) (ha : a ≠ []) : planCode (a ++ y') = .go script := by
  unfold planCode at hp ⊢
  rw [opens_block_append ha h.opens, lineEnd_append_opening h.opens] at hp
  rw [opens_block_append ha h.opens', lineEnd_append_opening h.opens']
  split_ifs at hp with hblock hline hend
  · cases hb : blockComment? (a ++ y) with
    | none =>
        rw [hb] at hp
        cases hp
    | some n =>
        rw [hb] at hp
        cases hp
        have htwo : 2 ≤ a.length := by
          obtain ⟨behind, rfl⟩ := Text.opens_iff.mp hblock
          exact Nat.le_add_left 2 behind.length
        rw [if_pos hblock, blockComment?_append (blockComment?_of_append hb hle) htwo]
  · cases hp
    obtain ⟨line, more, hfree, rfl⟩ :=
      exists_line_of_mem (newline_mem_of_append (ne_nil_of_opensBlock h.opens) hle)
    rw [List.append_assoc, List.cons_append] at hline ⊢
    rw [Text.opens_append_cons (by decide)] at hline
    rw [if_neg hblock, Text.opens_append_cons (by decide), if_pos hline, List.append_assoc,
      List.cons_append, wholeLine_append_newline hfree, wholeLine_append_newline hfree]
  · rw [if_neg hblock, if_neg (mt (h.opens_line ha) hline), if_pos hend, hp]
  · rw [if_neg hblock, if_neg (mt (h.opens_line ha) hline), if_neg hend, hp]

theorem marginUpTo_le_extent {t : Text} {indent : Nat} (hp : planBlock indent t = .go script) :
    marginUpTo indent t ≤ extent script := by
  have hscript : plan (.block indent) t = .go script := hp
  rcases plan_block hscript with rfl | ⟨body, rfl⟩
  · simp [extent, Op.extent, blockLineScript]
  · simp [extent, Op.extent, closeScript]

/-- A terminator that ends in front of a place is no part of a margin. -/
theorem not_blanks_of_cut? {body behind : Text}
    (hcut : Text.cut? "*/" (Text.firstLine (a ++ y)) = some (body, behind))
    (hroom : body.length + 2 ≤ a.length) : ¬Blanks a := by
  intro hblanks
  obtain ⟨-, more, hmore⟩ := Text.cut?_firstLine hcut
  have hfront : body ++ ("*/" : Text) <+: a := by
    refine List.prefix_of_prefix_length_le ⟨more, ?_⟩ (List.prefix_append a y) ?_
    · rw [hmore, List.append_assoc]
    · rwa [List.length_append]
  exact absurd (hblanks '*' (hfront.subset (by simp))) (by decide)

theorem planBlock_opening (h : OpensAlike y y') {indent : Nat}
    (hp : planBlock indent (a ++ y) = .go script) (hle : extent script ≤ a.length) :
    planBlock indent (a ++ y') = .go script := by
  have hne := ne_nil_of_opensBlock h.opens
  have hne' := ne_nil_of_opensBlock h.opens'
  obtain ⟨m, hm⟩ : ∃ m, m = marginUpTo indent (a ++ y) := ⟨_, rfl⟩
  have hmle : m ≤ a.length := hm ▸ (marginUpTo_le_extent hp).trans hle
  have hmargin' : ¬Blanks a → marginUpTo indent (a ++ y') = m := by
    intro hblanks
    rw [hm, marginUpTo, marginUpTo, margin_append_of_not_blanks hblanks,
      margin_append_of_not_blanks hblanks]
  have hdrop : ∀ z, (a ++ z).drop m = a.drop m ++ z :=
    fun z => List.drop_append_of_le_length hmle
  rw [planBlock_of_ne_nil (by simp [hne]), ← hm, hdrop] at hp
  rw [planBlock_of_ne_nil (by simp [hne'])]
  split at hp
  · next body behind hcut =>
    cases hp
    simp only [extent, closeScript, Op.extent, ← hm, hdrop] at hle
    have hroom : body.length + 2 ≤ (a.drop m).length := by
      rw [List.length_drop]
      omega
    obtain ⟨behind', hcut'⟩ := cut?_firstLine_local hcut hroom y'
    have hblanks : ¬Blanks a := fun hb =>
      not_blanks_of_cut? hcut hroom fun c hc => hb c (List.mem_of_mem_drop hc)
    have htail : ∀ {z}, opensBlock z → trailing (((a.drop m ++ z).drop body.length).drop 2) =
        trailing ((a.drop m).drop (body.length + 2)) := by
      intro z hz
      rw [List.drop_drop, List.drop_append_of_le_length hroom, trailing_append_opening hz]
    rw [hmargin' hblanks, hdrop, hcut']
    simp only [closeScript, ← hm, hmargin' hblanks, hdrop, htail h.opens, htail h.opens']
  · next hcut =>
    cases hp
    simp only [extent, blockLineScript, Op.extent, ← hm, hdrop] at hle
    have hwhole : wholeLine (a.drop m ++ y) ≤ (a.drop m).length := by
      rw [List.length_drop]
      omega
    have hmem := newline_mem_of_append hne hwhole
    have hblanks : ¬Blanks a := fun hb => hb.newline_notMem (List.mem_of_mem_drop hmem)
    obtain ⟨line, more, hfree, hline⟩ := exists_line_of_mem hmem
    rw [hmargin' hblanks, hdrop]
    simp only [blockLineScript, ← hm, hmargin' hblanks, hdrop, hline, List.append_assoc,
      List.cons_append, Text.firstLine_append_newline hfree, wholeLine_append_newline hfree]
      at hcut ⊢
    rw [hcut]

/-- What the scanner does in front of a block comment is the same in front of the other one. -/
theorem plan_opening (h : OpensAlike y y') {mode : Mode} (ha : a ≠ [])
    (hp : plan mode (a ++ y) = .go script) (hle : extent script ≤ a.length) :
    plan mode (a ++ y') = .go script := by
  have hoff : ∀ {p p' : Plan}, (p = .go script → p' = .go script) →
      planOutside (a ++ y) p = .go script → planOutside (a ++ y') p' = .go script := by
    intro p p' hpp hp
    rw [planOutside_of_ne_nil (by simp [ha])] at hp ⊢
    cases hl : literal? (a ++ y) with
    | none =>
        rw [hl] at hp
        rw [h.literal?_eq_none ha hl]
        exact hpp hp
    | some n =>
        rw [hl] at hp
        cases hp
        rw [literal?_append (literal?_of_append hl hle)]
  cases mode with
  | base => exact hoff (fun hp => planBase_opening h hp hle ha) hp
  | code => exact hoff (fun hp => planCode_opening h hp hle ha) hp
  | block indent => exact planBlock_opening h hp hle

/-- A run that comes to a block comment comes to the other one in its place. -/
theorem reaches_opening {u : Text} {s : Scanner} (h : OpensAlike y y')
    (hr : Reaches (ofText (u ++ y)) s) (hs : s.rest = y) :
    Reaches (ofText (u ++ y')) (s.before y') := by
  refine hr.exchange ?_ rfl hs
  intro a mode script ha _ hgo hle
  exact plan_opening h ha hgo hle

end Opening

end Scanner

end Marginalia
