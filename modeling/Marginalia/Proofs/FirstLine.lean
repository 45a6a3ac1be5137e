import Marginalia.Segment.Scanner
import Marginalia.Proofs.Marker

/-!
# No marker reaches over the end of its line

Line ends and quotes are part of no marker and are no horizontal space. What the functions of
`Marker` find in a text up to such a character is therefore what they find in front of it, whatever
follows. A marker that is searched for is found at the same place in every continuation of a text
that holds it.
-/
namespace Marginalia

theorem EndsLine.of_append {ending after y : Text} (h : EndsLine ending (after ++ y)) :
    EndsLine ending after :=
  h.imp_right fun h => ⟨h.1, (List.append_eq_nil_iff.mp h.2).1⟩

namespace Text

theorem dropOpening?_append_cons {opening a y : Text} {e : Char} (he : e ∉ opening) :
    dropOpening? opening (a ++ e :: y) = (dropOpening? opening a).map (· ++ e :: y) := by
  induction opening generalizing a with
  | nil => rfl
  | cons o os ih =>
      obtain ⟨ho, hos⟩ := not_or.mp (mt List.mem_cons.mpr he)
      cases a with
      | nil => simp [dropOpening?, Ne.symm ho]
      | cons c cs =>
          by_cases hc : o = c
          · simpa [dropOpening?, hc] using ih hos
          · simp [dropOpening?, hc]

theorem opens_append_cons {opening a y : Text} {e : Char} (he : e ∉ opening) :
    opens opening (a ++ e :: y) = opens opening a := by
  rw [opens, dropOpening?_append_cons he, Option.isSome_map]
  rfl

theorem dropOpening?_append {opening a behind : Text} (h : dropOpening? opening a = some behind)
    (y : Text) : dropOpening? opening (a ++ y) = some (behind ++ y) := by
  rw [dropOpening?_eq_some] at h ⊢
  rw [h, List.append_assoc]

/-- An opening that has room in a text opens it if it opens a continuation of it. -/
theorem dropOpening?_of_append {opening a y behind : Text}
    (h : dropOpening? opening (a ++ y) = some behind) (hle : opening.length ≤ a.length) :
    ∃ r, dropOpening? opening a = some r := by
  have hpre : opening <+: a ++ y := ⟨behind, (dropOpening?_eq_some.mp h).symm⟩
  obtain ⟨r, hr⟩ := List.prefix_of_prefix_length_le hpre (List.prefix_append a y) hle
  exact ⟨r, dropOpening?_eq_some.mpr hr.symm⟩

section Cut
variable {marker a y before behind : Text}

/-- A marker that stands in a text within the bounds of an initial part stands in that part. -/
theorem cut?_of_append (h : cut? marker (a ++ y) = some (before, behind))
    (hm : marker ≠ []) (hle : before.length + marker.length ≤ a.length) :
    ∃ r, cut? marker a = some (before, r) := by
  induction a generalizing before with
  | nil =>
      have := List.length_pos_iff.mpr hm
      simp only [List.length_nil] at hle
      omega
  | cons c cs ih =>
      simp only [List.cons_append, cut?] at h
      split at h
      · next r hr =>
        obtain ⟨rfl, rfl⟩ := Prod.mk.inj (Option.some.inj h)
        obtain ⟨r', hr'⟩ := dropOpening?_of_append (a := c :: cs) hr (by simpa using hle)
        exact ⟨r', by simp only [cut?, hr']⟩
      · next hnone =>
        obtain ⟨⟨b, r⟩, hb, he⟩ := Option.map_eq_some_iff.mp h
        obtain ⟨rfl, rfl⟩ := Prod.mk.inj he
        obtain ⟨r', hr'⟩ := ih hb (by simp only [List.length_cons] at hle; omega)
        have hopen : dropOpening? marker (c :: cs) = none := by
          cases ho : dropOpening? marker (c :: cs) with
          | none => rfl
          | some q => rw [← List.cons_append, dropOpening?_append ho] at hnone; cases hnone
        exact ⟨r', by simp only [cut?, hopen, hr', Option.map_some]⟩

theorem cut?_append (h : cut? marker a = some (before, behind)) (hm : marker ≠ []) (y : Text) :
    cut? marker (a ++ y) = some (before, behind ++ y) := by
  induction a generalizing before with
  | nil => simp [cut?, hm] at h
  | cons c cs ih =>
      simp only [cut?] at h
      split at h
      · next r hr =>
        obtain ⟨rfl, rfl⟩ := Prod.mk.inj (Option.some.inj h)
        have hopen := dropOpening?_append hr y
        rw [List.cons_append] at hopen
        simp only [List.cons_append, cut?, hopen]
      · next hnone =>
        obtain ⟨⟨b, r⟩, hb, he⟩ := Option.map_eq_some_iff.mp h
        obtain ⟨rfl, rfl⟩ := Prod.mk.inj he
        have hle : marker.length ≤ (c :: cs).length := by
          rw [List.length_cons, cut?_eq_some hb]
          simp only [List.length_append]
          omega
        have hopen : dropOpening? marker (c :: (cs ++ y)) = none := by
          cases ho : dropOpening? marker (c :: (cs ++ y)) with
          | none => rfl
          | some q =>
              obtain ⟨r', hr'⟩ := dropOpening?_of_append (a := c :: cs) ho hle
              rw [hr'] at hnone
              cases hnone
        simp only [List.cons_append, cut?, hopen, ih hb, Option.map_some]

/-- A character that is not part of the marker does not matter behind the text. -/
theorem cut?_append_singleton {e : Char} (hm : marker ≠ []) (he : e ∉ marker) (a : Text) :
    (cut? marker (a ++ [e])).map Prod.fst = (cut? marker a).map Prod.fst := by
  cases ha : cut? marker a with
  | some p => rw [cut?_append ha hm]; rfl
  | none =>
      cases hae : cut? marker (a ++ [e]) with
      | none => rfl
      | some p =>
          obtain ⟨b, r⟩ := p
          exfalso
          have heq := cut?_eq_some hae
          rcases List.eq_nil_or_concat r with rfl | ⟨r', x, rfl⟩
          · rw [List.append_nil] at heq
            have hlast := congrArg List.getLast? heq
            rw [List.getLast?_concat, List.getLast?_append,
              List.getLast?_eq_some_getLast hm] at hlast
            exact he (Option.some.inj hlast ▸ List.getLast_mem hm)
          · have hlen := congrArg List.length heq
            simp only [List.length_append, List.concat_eq_append, List.length_singleton] at hlen
            obtain ⟨r'', hr''⟩ := cut?_of_append hae hm (by omega)
            rw [ha] at hr''
            cases hr''

theorem cut?_append_eq_none (h : cut? marker (a ++ y) = none) : cut? marker y = none := by
  induction a with
  | nil => exact h
  | cons c cs ih =>
      simp only [List.cons_append, cut?] at h
      split at h
      · cases h
      · exact ih (Option.map_eq_none_iff.mp h)

theorem opens_of_cut?_eq_none (h : cut? marker (a ++ y) = none) (hm : marker ≠ []) :
    opens marker y = false := by
  have hy := cut?_append_eq_none h
  cases y with
  | nil => cases marker <;> simp_all [opens, dropOpening?]
  | cons c cs =>
      simp only [cut?] at hy
      split at hy
      · cases hy
      · next ho => rw [opens, ho]; rfl

end Cut

/-- A text is one line, or a line, a line feed and more. -/
theorem eq_line_or_append (t : Text) :
    '\n' ∉ t ∨ ∃ line more, '\n' ∉ line ∧ t = line ++ '\n' :: more := by
  obtain ⟨behind, he, rfl | ⟨more, rfl⟩⟩ := eq_firstLine_append t
  · left
    rw [he, List.append_nil]
    exact newline_notMem_firstLine t
  · exact .inr ⟨_, more, newline_notMem_firstLine t, he⟩

theorem firstLine_of_notMem {line : Text} (h : '\n' ∉ line) : firstLine line = line := by
  simpa [firstLine] using firstLine_append (b := []) h

theorem firstLine_append_newline {line : Text} (h : '\n' ∉ line) (y : Text) :
    firstLine (line ++ '\n' :: y) = line := by
  simpa [firstLine] using firstLine_append (b := '\n' :: y) h

theorem firstLine_line {body ending more : Text} (hb : '\n' ∉ body) (he : EndsLine ending more) :
    firstLine (body ++ ending ++ more) = body := by
  rcases he with rfl | ⟨rfl, rfl⟩
  · rw [List.append_assoc, List.singleton_append, firstLine_append_newline hb]
  · simpa using firstLine_of_notMem hb

end Text

namespace Marker

/-- Line ends and quotes. -/
def isStop (c : Char) : Bool := c == '\n' || c == '\r' || c == '"' || c == '\''

section Stop
variable {e : Char} {a y : Text}

theorem isHorizontal_of_isStop (he : isStop e) : isHorizontal e = false := by
  simp only [isStop, Bool.or_eq_true, beq_iff_eq] at he
  rcases he with ((rfl | rfl) | rfl) | rfl <;> decide

theorem notMem_of_isStop {marker : Text} (he : isStop e) (hm : marker.any isStop = false) :
    e ∉ marker := by
  intro h
  have := List.any_eq_false.mp hm e h
  exact this he

theorem margin_append_stop (he : isStop e) : margin (a ++ e :: y) = margin a :=
  margin_append (by simpa using isHorizontal_of_isStop he)

theorem drop_margin_append (a y : Text) :
    (a ++ y).drop (margin a) = a.drop (margin a) ++ y :=
  List.drop_append_of_le_length (margin_le_length a)

theorem opensBlock_append_stop (he : isStop e) : opensBlock (a ++ e :: y) = opensBlock a := by
  rw [opensBlock, margin_append_stop he, drop_margin_append]
  exact Text.opens_append_cons (notMem_of_isStop he (by decide))

theorem opensLine_append_stop (he : isStop e) : opensLine (a ++ e :: y) = opensLine a := by
  rw [opensLine, margin_append_stop he, drop_margin_append]
  exact Text.opens_append_cons (notMem_of_isStop he (by decide))

theorem margin_add_two_le_of_opensLine (ho : opensLine a) : margin a + 2 ≤ a.length :=
  margin_add_two_le rfl ho

theorem lineCommentLead_append_stop (he : isStop e) (ho : opensLine a) :
    lineCommentLead (a ++ e :: y) = lineCommentLead a := by
  simp only [lineCommentLead, margin_append_stop he,
    List.drop_append_of_le_length (margin_add_two_le_of_opensLine ho)]

theorem lineCommentLead_le (ho : opensLine a) : lineCommentLead a ≤ a.length := by
  have hmargin := margin_le_length (a.drop (margin a + 2))
  have htwo := margin_add_two_le_of_opensLine ho
  rw [List.length_drop] at hmargin
  simp only [lineCommentLead]
  omega

theorem isLicenseTag_append_stop (he : isStop e) :
    isLicenseTag (a ++ e :: y) = isLicenseTag a := by
  rw [isLicenseTag, isLicenseTag, opensLine_append_stop he]
  cases ho : opensLine a with
  | false => rfl
  | true =>
      rw [lineCommentLead_append_stop he ho,
        List.drop_append_of_le_length (lineCommentLead_le ho),
        Text.opens_append_cons (notMem_of_isStop he (by decide))]

end Stop

section Line
variable {line : Text}

theorem directive?_append_stop {e : Char} {y : Text} (he : isStop e) (h : '\n' ∉ line)
    (hcut : ∀ behind, '\n' ∉ behind →
      (Text.cut? "+" (Text.firstLine (behind ++ e :: y))).map Prod.fst =
        (Text.cut? "+" behind).map Prod.fst) :
    directive? (line ++ e :: y) = directive? line := by
  rw [directive?, directive?, margin_append_stop he, drop_margin_append,
    Text.dropOpening?_append_cons (notMem_of_isStop he (by decide))]
  cases hb : Text.dropOpening? "//+" (line.drop (margin line)) with
  | none => rfl
  | some behind =>
      have hfree : '\n' ∉ behind := by
        intro hmem
        apply h
        apply List.mem_of_mem_drop (i := margin line)
        rw [Text.dropOpening?_eq_some.mp hb]
        exact List.mem_append_right _ hmem
      simpa only [Option.map_some, Text.firstLine_of_notMem hfree] using hcut behind hfree

theorem directive?_append_newline (h : '\n' ∉ line) (y : Text) :
    directive? (line ++ '\n' :: y) = directive? line := by
  apply directive?_append_stop (by decide) h
  intro behind hb
  rw [Text.firstLine_append_newline hb]

/-- A return at the end of a line is not part of a directive. -/
theorem directive?_append_return (h : '\n' ∉ line) :
    directive? (line ++ ['\r']) = directive? line := by
  apply directive?_append_stop (by decide) h
  intro behind hb
  rw [Text.firstLine_of_notMem (by simpa using hb)]
  exact Text.cut?_append_singleton (by decide) (by decide) behind

theorem lineLength_append_newline (h : '\n' ∉ line) (y : Text) :
    lineLength (line ++ '\n' :: y) = line.length := by
  rw [lineLength, Text.firstLine_append_newline h]

theorem wholeLine_append_newline (h : '\n' ∉ line) (y : Text) :
    wholeLine (line ++ '\n' :: y) = line.length + 1 := by
  rw [wholeLine, lineLength_append_newline h, List.drop_left]
  rfl

theorem lineEnd_line {ending more : Text} (he : EndsLine ending more) :
    lineEnd (ending ++ more) = ending.length := by
  rcases he with rfl | ⟨rfl, rfl⟩ <;> rfl

theorem wholeLine_line {body ending more : Text} (hb : '\n' ∉ body) (he : EndsLine ending more) :
    wholeLine (body ++ ending ++ more) = (body ++ ending).length := by
  rw [wholeLine, lineLength, Text.firstLine_line hb he, List.append_assoc, List.drop_left,
    lineEnd_line he, List.length_append]

end Line

end Marker

end Marginalia
