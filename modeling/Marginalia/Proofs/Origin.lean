import Marginalia.Segment.Basic
import Marginalia.Proofs.Marker

/-!
# What the source of a segment looks like

A source is taken apart by the kind of its segment. In front of a comment or a clear mark there may
be lines that were dropped; then come the margin, the marker and the words. A block comment loses
the indentation of each of its physical lines, and nothing else of them. Code is whatever is left
when dropped lines are taken out. Dropped lines behind the last segment of a file belong to it.

A line ends in a line feed or where the file ends, so each form is a form in front of some text
`after`. The theorems of this module find the forms at the front of a text by its markers.
-/
namespace Marginalia.Segment

/-- A line that is dropped, in front of the text `after`: a license tag or an ignore directive. -/
inductive DroppedLine (after : Text) : Text → Prop
  | license {margin gap words ending : Text} : Blanks margin → Blanks gap → '\n' ∉ words →
      EndsLine ending after →
      DroppedLine after (margin ++ "//" ++ gap ++ "SPDX-License-Identifier:" ++ words ++ ending)
  | ignore {margin words ending : Text} : Blanks margin → '\n' ∉ words → EndsLine ending after →
      DroppedLine after (margin ++ "//+ignore+" ++ words ++ ending)

/-- A source, in front of the text `after`, and what is left of it when dropped lines are taken
out. -/
inductive Thinned (after : Text) : Text → Text → Prop
  | done : Thinned after [] []
  | keep (c : Char) {source content : Text} : Thinned after source content →
      Thinned after (c :: source) (c :: content)
  | drop {line source content : Text} : DroppedLine (source ++ after) line →
      Thinned after source content → Thinned after (line ++ source) content

/-- Any number of dropped lines: nothing is left of them. -/
def DroppedLines (after t : Text) : Prop := Thinned after t []

/-- A line without its leading horizontal spaces, of which at most `indent` are removed. -/
def outdent (indent : Nat) (line : Text) : Text :=
  line.drop (min indent (line.takeWhile isHorizontal).length)

/-- A comment or a clear mark as it stands in the file in front of the text `after`, and the content
that it has. -/
inductive Spelled (after : Text) : Kind → Text → Text → Prop
  | lineComment {margin gap content ending : Text} : Blanks margin → Blanks gap → '\n' ∉ content →
      ending = [] ∨ IsLineBreak ending →
      Spelled after .lineComment (margin ++ "//" ++ gap ++ content ++ ending) content
  | blockComment {margin blanks ending : Text} {lines : List Text} : Blanks margin →
      lines ≠ [] → (∀ line ∈ lines, '\n' ∉ line) → Blanks blanks →
      blanks = [] ∧ ending = [] ∨ IsLineBreak ending →
      Spelled after .blockComment
        (margin ++ "/*" ++ Text.join "\n" lines ++ "*/" ++ (blanks ++ ending))
        (Text.join "\n" (lines.map (outdent (margin.length + 3))))
  | clear {margin words ending : Text} : Blanks margin → '\n' ∉ words → EndsLine ending after →
      Spelled after .clear (margin ++ "//+clear+" ++ words ++ ending) []

/-- How a segment of some kind comes from its source, in front of the text `after`. -/
inductive Origin (after : Text) : Kind → Text → Text → Prop
  | code {source content : Text} : Thinned after source content → Origin after .code source content
  | mark {kind : Kind} {lead own content : Text} : DroppedLines (own ++ after) lead →
      Spelled after kind own content → Origin after kind (lead ++ own) content

/-- A segment in front of the segments `after` is accounted for: its source has the form of its
kind, and further dropped lines follow only behind the last segment of a file. -/
def Accounted (s : Segment) (after : List Segment) : Prop :=
  ∃ own tail, s.source = own ++ tail ∧ Origin (tail ++ reassemble after) s.kind own s.content ∧
    DroppedLines (reassemble after) tail ∧ (after = [] ∨ tail = [])

theorem Thinned.refl (after t : Text) : Thinned after t t := by
  induction t with
  | nil => exact .done
  | cons c cs ih => exact .keep c ih

theorem Thinned.append {after s₁ s₂ c₁ c₂ : Text} (h₁ : Thinned (s₂ ++ after) s₁ c₁)
    (h₂ : Thinned after s₂ c₂) : Thinned after (s₁ ++ s₂) (c₁ ++ c₂) := by
  induction h₁ with
  | done => exact h₂
  | keep c _ ih => exact .keep c ih
  | drop hline _ ih =>
      rw [List.append_assoc]
      exact .drop (by simpa using hline) ih

/-- A source that grows by what stands next in the file. -/
theorem Thinned.advance {rest source content new : Text} {n : Nat}
    (h : Thinned rest source content) (hn : Thinned (rest.drop n) (rest.take n) new) :
    Thinned (rest.drop n) (source ++ rest.take n) (content ++ new) :=
  Thinned.append (by rwa [List.take_append_drop]) hn

theorem DroppedLine.thinned {after line : Text} (h : DroppedLine after line) :
    Thinned after line [] := by
  have ht : Thinned after (line ++ []) [] := .drop (by simpa using h) .done
  simpa using ht

theorem droppedLine_take {t : Text}
    (h : Marker.isLicenseTag t ∨ Marker.directive? t = some ("ignore" : Text)) :
    DroppedLine (t.drop (Marker.wholeLine t)) (t.take (Marker.wholeLine t)) := by
  rcases h with h | h
  · obtain ⟨margin, gap, words, ending, hm, hg, hw, hend, htake⟩ := Marker.take_licenseLine h
    rw [htake]
    exact .license hm hg hw hend
  · obtain ⟨margin, words, ending, hm, hw, hend, htake⟩ := Marker.take_directiveLine h
    rw [htake]
    exact .ignore hm hw hend

theorem spelled_clear {t : Text} (h : Marker.directive? t = some ("clear" : Text)) :
    Spelled (t.drop (Marker.wholeLine t)) .clear (t.take (Marker.wholeLine t)) [] := by
  obtain ⟨margin, words, ending, hm, hw, hend, htake⟩ := Marker.take_directiveLine h
  rw [htake]
  exact .clear hm hw hend

theorem spelled_lineComment {t : Text} (ho : Marker.opensLine t) (rest after : Text) :
    let body := rest.take (Text.dropEnding "\r" (Text.firstLine rest)).length
    let behind := rest.drop (Text.dropEnding "\r" (Text.firstLine rest)).length
    Spelled after .lineComment
      (t.take (Marker.lineCommentLead t) ++ body ++ behind.take (Marker.lineEnd behind)) body := by
  intro body behind
  obtain ⟨margin, gap, hm, hg, hlead⟩ := Marker.take_lineCommentLead ho
  have hpre := Text.dropEnding_isPrefix "\r" (Text.firstLine rest)
  have hbody : body = Text.dropEnding "\r" (Text.firstLine rest) :=
    (List.prefix_iff_eq_take.mp (hpre.trans (List.takeWhile_prefix _))).symm
  have hfree : '\n' ∉ body := by
    rw [hbody]
    exact fun h => Text.newline_notMem_firstLine rest (hpre.subset h)
  rw [hlead]
  refine .lineComment hm hg hfree ?_
  rcases Marker.take_lineEnd behind with h | h
  · exact .inl (by rw [h, List.take_zero])
  · exact .inr h

section PhysicalLine
variable {indent : Nat} {t body more : Text}

theorem eq_take_append (h : t.drop (Marker.marginUpTo indent t) = body ++ more) :
    t = t.take (Marker.marginUpTo indent t) ++ body ++ more := by
  rw [List.append_assoc, ← h, List.take_append_drop]

theorem newline_notMem_take_append (h : '\n' ∉ body) :
    '\n' ∉ t.take (Marker.marginUpTo indent t) ++ body := by
  rw [List.mem_append, not_or]
  exact ⟨(Marker.blanks_take_marginUpTo indent t).newline_notMem, h⟩

/-- The indentation of the first line can be read off the whole text. -/
theorem outdent_take (h : t.drop (Marker.marginUpTo indent t) = body ++ more)
    (hmore : ∀ c ∈ more.head?, isHorizontal c = false) :
    outdent indent (t.take (Marker.marginUpTo indent t) ++ body) = body := by
  have hmargin : Marker.margin (t.take (Marker.marginUpTo indent t) ++ body) = Marker.margin t := by
    rw [← Marker.margin_append hmore, ← eq_take_append h]
  calc outdent indent (t.take (Marker.marginUpTo indent t) ++ body)
      = (t.take (Marker.marginUpTo indent t) ++ body).drop (Marker.marginUpTo indent t) := by
        rw [outdent, ← Marker.margin, hmargin, ← Marker.marginUpTo]
    _ = body := List.drop_left' (Marker.length_take_marginUpTo indent t)

end PhysicalLine

end Marginalia.Segment
