import Marginalia.Proofs.Lossless
import Marginalia.Proofs.Origin
import Mathlib.Data.List.Induction

/-!
# The content of a segment is its source without markers

Every segment of a file is accounted for by its source. The proof follows the scanner: what it has
spent since the last segment is, at every moment, a source without its end, and every move brings it
nearer to a complete one. The text behind the finished segments does not change until the next one
is emitted, so what was in front of it stays in front of it.
-/
namespace Marginalia

namespace Segment

/-- Finished segments, the last one first, in front of the text `after`. -/
def Recorded : List Segment → Text → Prop
  | [], _ => True
  | last :: before, after =>
      Origin after last.kind last.source last.content ∧ Recorded before (last.source ++ after)

theorem Recorded.origin {later earlier : List Segment} {s : Segment} {after : Text}
    (h : Recorded (later.reverse ++ s :: earlier) after) :
    Origin (reassemble later ++ after) s.kind s.source s.content := by
  induction later using List.reverseRecOn generalizing after with
  | nil => exact h.1
  | append_singleton later last ih =>
      rw [List.reverse_append] at h
      simpa using ih h.2

/-- Complete lines, each with its line feed. -/
def completed (lines : List Text) : Text := lines.flatMap fun line => line ++ ("\n" : Text)

theorem completed_concat (lines : List Text) (line : Text) :
    completed (lines ++ [line]) = completed lines ++ (line ++ "\n") := by
  simp [completed]

/-- A block comment that is still open, in front of the rest: dropped lines, the opener behind its
margin, and complete lines. -/
structure OpenBlock (rest : Text) (indent : Nat) (lead margin : Text) (lines : List Text)
    (source content : Text) : Prop where
  blanks : Blanks margin
  indent_eq : indent = margin.length + 3
  unbroken : ∀ line ∈ lines, '\n' ∉ line
  dropped : DroppedLines (margin ++ "/*" ++ completed lines ++ rest) lead
  source_eq : source = lead ++ (margin ++ "/*" ++ completed lines)
  content_eq : content = completed (lines.map (outdent indent))

section OpenBlock
variable {rest lead margin source content line : Text} {indent : Nat} {lines : List Text}

theorem OpenBlock.unbroken_concat (h : OpenBlock rest indent lead margin lines source content)
    (hline : '\n' ∉ line) : ∀ l ∈ lines ++ [line], '\n' ∉ l := by
  intro l hl
  rcases List.mem_append.mp hl with hl | hl
  · exact h.unbroken l hl
  · rwa [List.mem_singleton.mp hl]

theorem OpenBlock.concat {after : Text} (h : OpenBlock rest indent lead margin lines source content)
    (hline : '\n' ∉ line) (hrest : rest = line ++ ("\n" ++ after)) :
    OpenBlock after indent lead margin (lines ++ [line]) (source ++ (line ++ "\n"))
      (content ++ (outdent indent line ++ "\n")) := by
  constructor
  · exact h.blanks
  · exact h.indent_eq
  · exact h.unbroken_concat hline
  · have hd := h.dropped
    rw [hrest] at hd
    simpa [completed_concat] using hd
  · rw [h.source_eq, completed_concat]
    simp only [List.append_assoc]
  · rw [h.content_eq, List.map_append, List.map_singleton, completed_concat]

theorem OpenBlock.spelled {blanks ending : Text}
    (h : OpenBlock rest indent lead margin lines source content) (hline : '\n' ∉ line)
    (hb : Blanks blanks) (he : blanks = [] ∧ ending = [] ∨ IsLineBreak ending) (after : Text) :
    Spelled after .blockComment
      (margin ++ "/*" ++ completed lines ++ (line ++ "*/" ++ (blanks ++ ending)))
      (content ++ outdent indent line) := by
  have hsource : completed lines ++ line = Text.join "\n" (lines ++ [line]) :=
    (Text.join_concat _ _ _).symm
  have hcontent : content ++ outdent indent line =
      Text.join "\n" ((lines ++ [line]).map (outdent (margin.length + 3))) := by
    rw [h.content_eq, h.indent_eq, List.map_append, List.map_singleton, Text.join_concat]
    rfl
  have hs : Spelled after _ _ _ :=
    .blockComment h.blanks (by simp) (h.unbroken_concat hline) hb he
  rw [hcontent]
  simpa only [← hsource, List.append_assoc] using hs

end OpenBlock

end Segment

namespace Scanner
open Segment

/-- What the scanner has spent and held since the last segment. A block comment whose last line has
no line feed leaves no rest, and then nothing is said: such a run fails. -/
def Underway (rest source content : Text) : Mode → Prop
  | .base => Thinned rest source content
  | .code => Thinned rest source content
  | .block indent => rest = [] ∨ ∃ lead margin lines,
      OpenBlock rest indent lead margin lines source content

/-- Every finished segment has an origin, and so has the pending one as far as it goes. -/
structure Traced (s : Scanner) : Prop where
  recorded : Recorded s.segments s.ahead
  underway : Underway s.rest s.spent s.held s.mode

theorem Traced.ofText (text : Text) : Traced (ofText text) := ⟨trivial, .done⟩

theorem Underway.thinned {rest source content : Text} {mode : Mode}
    (h : Underway rest source content mode) (hm : mode.Outside) : Thinned rest source content := by
  rcases hm with rfl | rfl <;> exact h

theorem underway_of_thinned {rest source content : Text} {mode : Mode}
    (h : Thinned rest source content) (hm : mode.Outside) : Underway rest source content mode := by
  rcases hm with rfl | rfl <;> exact h

theorem Traced.openBlock {s : Scanner} {indent : Nat} (hs : Traced s)
    (hm : s.mode = .block indent) (hne : s.rest ≠ []) :
    ∃ lead margin lines, OpenBlock s.rest indent lead margin lines s.spent s.held := by
  have hu := hs.underway
  rw [hm] at hu
  exact hu.resolve_left hne

/-- Flushing the code leaves nothing but dropped lines. -/
theorem Traced.flush_code {s : Scanner} (h : Traced s) (hm : s.mode.Outside) :
    Recorded (s.flush .code).segments (s.flush .code).ahead ∧
      DroppedLines s.rest (s.flush .code).spent := by
  have ht := h.underway.thinned hm
  by_cases hheld : s.held = []
  · rw [flush_code_of_held_nil hheld]
    rw [hheld] at ht
    exact ⟨h.recorded, ht⟩
  · rw [flush_eq (.inr hheld)]
    exact ⟨⟨.code ht, h.recorded⟩, .done⟩

theorem rest_eq_append {s t : Scanner} {own : Text} (ha : t.ahead = s.ahead)
    (hs : t.spent = s.spent ++ own) : s.rest = own ++ t.rest := by
  rw [ahead, ahead, hs, List.append_assoc] at ha
  exact (List.append_cancel_left ha).symm

/-- A comment or a clear mark is emitted together with the dropped lines in front of it. -/
theorem traced_emit {s : Scanner} {kind : Kind} (lead own : Text)
    (hr : Recorded s.segments s.ahead) (hlead : DroppedLines (own ++ s.rest) lead)
    (hspent : s.spent = lead ++ own) (hown : Spelled s.rest kind own s.held) :
    Traced ((s.flush kind).enter .base) := by
  have hk : kind ≠ .code := by
    rintro rfl
    cases hown
  have ho : Origin s.rest kind s.spent s.held := hspent ▸ .mark hlead hown
  rw [flush_eq (.inl hk)]
  exact ⟨⟨ho, hr⟩, .done⟩

theorem Traced.emit_behind_code {s t : Scanner} {kind : Kind} (hs : Traced s)
    (hm : s.mode = .base) (own : Text) (hseg : t.segments = (s.flush .code).segments)
    (ha : t.ahead = (s.flush .code).ahead) (hspent : t.spent = (s.flush .code).spent ++ own)
    (hown : Spelled t.rest kind own t.held) : Traced ((t.flush kind).enter .base) := by
  obtain ⟨hr, hdrop⟩ := hs.flush_code (.inl hm)
  have hrest : s.rest = own ++ t.rest := by
    rw [← flush_rest .code s]
    exact rest_eq_append ha hspent
  apply traced_emit (s.flush .code).spent own _ _ hspent hown
  · rwa [hseg, ha]
  · rwa [← hrest]

theorem Traced.clear {s : Scanner} (hs : Traced s) (hm : s.mode = .base)
    (hd : Marker.directive? s.rest = some ("clear" : Text)) :
    Traced ((((s.flush .code).begin.skip (Marker.wholeLine s.rest)).flush .clear).enter .base) := by
  apply hs.emit_behind_code hm (s.rest.take (Marker.wholeLine s.rest))
  · simp
  · simp
  · simp
  · simpa using spelled_clear hd

theorem Traced.lineComment {s t u : Scanner} (hs : Traced s) (hm : s.mode = .base)
    (ho : Marker.opensLine s.rest)
    (ht : t = (s.flush .code).begin.skip (Marker.lineCommentLead s.rest))
    (hu : u = t.keep (Text.dropEnding "\r" (Text.firstLine t.rest)).length) :
    Traced (((u.skip (Marker.lineEnd u.rest)).flush .lineComment).enter .base) := by
  have hown := spelled_lineComment ho t.rest (u.skip (Marker.lineEnd u.rest)).rest
  have hheld : u.held = t.rest.take (Text.dropEnding "\r" (Text.firstLine t.rest)).length := by
    simp [hu, ht]
  have hrest : u.rest = t.rest.drop (Text.dropEnding "\r" (Text.firstLine t.rest)).length := by
    simp [hu]
  simp only [← hheld, ← hrest] at hown
  apply hs.emit_behind_code hm _ _ _ _ hown
  · simp [hu, ht]
  · simp [hu, ht]
  · simp [hu, ht]

theorem Traced.opening {s : Scanner} (hs : Traced s) (hm : s.mode = .base)
    (ho : Marker.opensBlock s.rest) :
    Traced (((s.flush .code).begin.skip (Marker.margin s.rest + 2)).enter
      (.block (Marker.margin s.rest + blockIndentGap))) := by
  obtain ⟨hr, hdrop⟩ := hs.flush_code (.inl hm)
  refine ⟨by simpa using hr,
    .inr ⟨(s.flush .code).spent, s.rest.take (Marker.margin s.rest), [], ?_⟩⟩
  constructor
  · exact Marker.blanks_take_margin _
  · rw [List.length_take_of_le (Marker.margin_le_length _), blockIndentGap]
  · simp
  · rw [← Marker.take_blockOpener ho]
    simpa [completed] using hdrop
  · rw [← Marker.take_blockOpener ho]
    simp [completed]
  · simp [completed]

theorem Traced.blockLine {s t : Scanner} {indent : Nat} (hs : Traced s)
    (hm : s.mode = .block indent) (hne : s.rest ≠ [])
    (ht : t = s.skip (Marker.marginUpTo indent s.rest)) :
    Traced ((t.keep (Marker.wholeLine t.rest)).enter (.block indent)) := by
  refine ⟨by simpa [ht] using hs.recorded, ?_⟩
  obtain ⟨lead, margin, lines, hopen⟩ := hs.openBlock hm hne
  obtain ⟨ending, htake, hend⟩ := Marker.take_wholeLine t.rest
  rcases hend with rfl | ⟨_, hnil⟩
  · have hrest : s.rest.drop (Marker.marginUpTo indent s.rest) =
        Text.firstLine t.rest ++ ("\n" ++ t.rest.drop (Marker.wholeLine t.rest)) := by
      rw [← List.append_assoc]
      calc s.rest.drop (Marker.marginUpTo indent s.rest) = t.rest := by rw [ht, skip_rest]
        _ = t.rest.take (Marker.wholeLine t.rest) ++ t.rest.drop (Marker.wholeLine t.rest) :=
            (List.take_append_drop _ _).symm
        _ = _ := by rw [htake]; rfl
    have hnew := hopen.concat
      (newline_notMem_take_append (Text.newline_notMem_firstLine t.rest)) (eq_take_append hrest)
    rw [outdent_take hrest (by simp +decide)] at hnew
    have hspent : (t.keep (Marker.wholeLine t.rest)).spent = s.spent ++
        (s.rest.take (Marker.marginUpTo indent s.rest) ++ Text.firstLine t.rest ++ "\n") := by
      rw [keep_spent, htake, ht]
      simp
    have hheld : (t.keep (Marker.wholeLine t.rest)).held =
        s.held ++ (Text.firstLine t.rest ++ "\n") := by
      rw [keep_held, htake, ht]
      rfl
    rw [← hspent, ← hheld, ← keep_rest] at hnew
    exact .inr ⟨lead, margin, _, hnew⟩
  · exact .inl (by simpa using hnil)

theorem Traced.closeBlock {s t u : Scanner} {indent : Nat} {body behind : Text} (hs : Traced s)
    (hm : s.mode = .block indent) (ht : t = s.skip (Marker.marginUpTo indent s.rest))
    (hcut : Text.cut? "*/" (Text.firstLine t.rest) = some (body, behind))
    (hu : u = (t.keep body.length).skip 2) :
    Traced ((u.skipTrailing.flush .blockComment).enter .base) := by
  obtain ⟨hfree, more, hmore⟩ := Text.cut?_firstLine hcut
  have hrest : s.rest.drop (Marker.marginUpTo indent s.rest) = body ++ ("*/" ++ more) := by
    rw [← hmore, ht, skip_rest]
  have hne : s.rest ≠ [] := by
    intro h
    simp [h] at hrest
  obtain ⟨lead, margin, lines, hopen⟩ := hs.openBlock hm hne
  obtain ⟨blanks, ending, hb, he, htrail⟩ := u.skipTrailing_spent
  obtain ⟨line, hl⟩ : ∃ line, line = s.rest.take (Marker.marginUpTo indent s.rest) ++ body :=
    ⟨_, rfl⟩
  have hout : outdent indent line = body := hl ▸ outdent_take hrest (by simp +decide)
  have hspent : u.skipTrailing.spent = s.spent ++ (line ++ "*/" ++ (blanks ++ ending)) := by
    rw [htrail]
    simp [hu, ht, hrest, hl]
  have hheld : u.skipTrailing.held = s.held ++ outdent indent line := by
    simp [hu, ht, hrest, hout]
  have hahead : u.skipTrailing.ahead = s.ahead := by
    simp [hu, ht]
  apply traced_emit lead (margin ++ "/*" ++ completed lines ++ (line ++ "*/" ++ (blanks ++ ending)))
  · rw [hahead]
    simpa [hu, ht] using hs.recorded
  · have hd := hopen.dropped
    rw [rest_eq_append hahead hspent] at hd
    simpa only [List.append_assoc] using hd
  · rw [hspent, hopen.source_eq]
    simp only [List.append_assoc]
  · rw [hheld]
    exact hopen.spelled (hl ▸ newline_notMem_take_append hfree) hb he _

theorem Move.traced {s t : Scanner} (h : Move s t) (hs : Traced s) : Traced t := by
  cases h with
  | @keep n mode hm hmode =>
      have ht := (hs.underway.thinned hm).advance (.refl _ (s.rest.take n))
      exact ⟨by simpa using hs.recorded, by simpa using underway_of_thinned ht hmode⟩
  | drop hm _ hd =>
      have ht := (hs.underway.thinned (.inl hm)).advance (droppedLine_take hd).thinned
      exact ⟨by simpa using hs.recorded, by simpa using underway_of_thinned ht (.inl rfl)⟩
  | clear hm _ hd => exact hs.clear hm hd
  | lineComment hm ho _ _ ht hu => exact hs.lineComment hm ho ht hu
  | openBlock hm ho => exact hs.opening hm ho
  | blockLine hm hne ht _ => exact hs.blockLine hm hne ht
  | closeBlock hm ht hcut hu => exact hs.closeBlock hm ht hcut hu

theorem accounted_of_finish {s : Scanner} (hr : Recorded s.segments s.spent)
    (hd : DroppedLines [] s.spent) {before after : List Segment} {segment : Segment}
    (h : s.finish = before ++ segment :: after) : segment.Accounted after := by
  have hrev := congrArg List.reverse h
  rw [List.reverse_append, List.reverse_cons, List.append_assoc, List.singleton_append] at hrev
  unfold finish at hrev
  split at hrev
  · next hc =>
    have hnil : s.spent = [] := by rw [spent, hc, List.reverse_nil]
    rw [List.reverse_reverse] at hrev
    rw [hrev, hnil] at hr
    exact ⟨_, [], (List.append_nil _).symm, by simpa using hr.origin, .done, .inr rfl⟩
  · rcases List.eq_nil_or_concat after with rfl | ⟨later, x, rfl⟩
    · cases hseg : s.segments with
      | nil =>
          rw [hseg] at hrev
          obtain ⟨rfl, -⟩ := List.cons_eq_cons.mp hrev
          exact ⟨_, [], (List.append_nil _).symm, .code hd, .done, .inl rfl⟩
      | cons last earlier =>
          rw [hseg, List.reverse_reverse] at hrev
          obtain ⟨rfl, -⟩ := List.cons_eq_cons.mp hrev
          rw [hseg] at hr
          exact ⟨last.source, s.spent, rfl, by simpa [reassemble] using hr.1, hd, .inl rfl⟩
    · rw [List.concat_eq_append, List.reverse_append] at hrev
      cases hseg : s.segments with
      | nil =>
          rw [hseg] at hrev
          exact absurd hrev (by simp)
      | cons last earlier =>
          rw [hseg, List.reverse_reverse] at hrev
          obtain ⟨rfl, rfl⟩ := List.cons_eq_cons.mp hrev
          rw [hseg] at hr
          refine ⟨_, [], (List.append_nil _).symm, ?_, .done, .inr rfl⟩
          simpa [spent] using hr.2.origin

end Scanner

namespace Segment

/-- Every segment of a file is accounted for. -/
theorem scan_accounted {file text : Text} {segments : List Segment}
    (h : scan file text = .ok segments) {before after : List Segment} {s : Segment}
    (hs : segments = before ++ s :: after) : s.Accounted after := by
  obtain ⟨t, hreach, hdone⟩ := Scanner.run_ok_iff.mp (scan_eq_ok.mp h)
  have htraced : t.Traced := hreach.invariant Scanner.Move.traced (.ofText text)
  obtain ⟨hm, hrest, hseg⟩ := Scanner.step_done hdone
  obtain ⟨hr, hd⟩ := htraced.flush_code hm
  rw [Scanner.ahead, Scanner.flush_rest, hrest, List.append_nil] at hr
  rw [hrest] at hd
  exact Scanner.accounted_of_finish hr hd (hseg.symm.trans hs)

/-- A block comment between two dropped lines. Its first line loses one space, its second line five
of six. -/
theorem scan_accounted_block :
    ∃ comment : Segment,
      scan "a.sol" "//+ignore+\n  /* a\n      b */ \n//+ignore+" = .ok [comment] ∧
      comment.kind = .blockComment ∧ comment.content = "a\n b " ∧ comment.Accounted [] := by
  have h : scan "a.sol" "//+ignore+\n  /* a\n      b */ \n//+ignore+" =
      .ok [{ kind := .blockComment, content := "a\n b ", line := 2,
             source := "//+ignore+\n  /* a\n      b */ \n//+ignore+" }] := by
    with_unfolding_all rfl
  exact ⟨_, h, rfl, rfl, scan_accounted h (List.nil_append _).symm⟩

end Segment

end Marginalia
