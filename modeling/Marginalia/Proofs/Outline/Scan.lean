import Marginalia.Proofs.Lossless
import Marginalia.Proofs.Outline.Plan

/-!
# Scanning follows the outline

The scanner goes over a file with line comments only one physical line after the other. What it has
emitted and what it still holds at the start of a line is the outline so far: a line of code is
added to what is held, a comment or a clear mark is emitted behind it, and a dropped line changes
nothing. The rest of the outline follows by induction over the lines.
-/
namespace Marginalia

namespace Scanner
open Marker Segment

/-- What has been emitted, as later stages see it. -/
def stream (s : Scanner) : List Segment := s.segments.reverse.map bare

/-- The code that is held, as a segment of its own. -/
def pendingCode (s : Scanner) : List Segment :=
  if s.held = [] then [] else [(s.pending .code).bare]

/-- How a run ends, as later stages see it. -/
def outcome (file : Text) (s : Scanner) : Except ParseError (List Segment) :=
  (s.run.mapError fun e => e.2.report file e.1).map (List.map bare)

section Stream
variable (s : Scanner)

@[simp] theorem stream_skip (n : Nat) : (s.skip n).stream = s.stream := rfl
@[simp] theorem stream_begin : s.begin.stream = s.stream := rfl
@[simp] theorem stream_enter (mode : Mode) : (s.enter mode).stream = s.stream := rfl
@[simp] theorem stream_keep (n : Nat) : (s.keep n).stream = s.stream := by simp [stream]

theorem stream_flush_code : (s.flush .code).stream = s.stream ++ s.pendingCode := by
  rw [stream, flush_segments, pendingCode]
  by_cases h : s.held = []
  · simp [h, stream]
  · simp [h, stream]

theorem stream_flush {kind : Kind} (hk : kind ≠ .code) :
    (s.flush kind).stream = s.stream ++ [(s.pending kind).bare] := by
  rw [stream, flush_segments]
  simp [hk, stream]

theorem perform_whole (script : List Op) : (s.perform script).whole = s.whole := by
  induction script generalizing s with
  | nil => rfl
  | cons op script ih =>
      rw [perform_cons, ih]
      cases op <;> simp [apply]

theorem perform_line (script : List Op) :
    (s.perform script).line = s.line + Text.newlines (s.rest.take (extent script)) := by
  induction script generalizing s with
  | nil => simp [extent, Text.newlines]
  | cons op script ih =>
      have hop : (s.apply op).line = s.line + Text.newlines (s.rest.take op.extent) := by
        cases op <;> simp [apply, Op.extent, Text.newlines]
      rw [perform_cons, ih, hop, apply_rest, extent_cons, List.take_add]
      simp [Text.newlines, Nat.add_assoc]

/-- At the end of a file without a segment there is one of empty code, unless the file is empty. -/
theorem finish_bare_eq (hr : s.rest = []) :
    s.finish.map bare = orEmptyCode s.whole s.stream := by
  rw [orEmptyCode]
  by_cases h : s.segments = [] ∧ s.consumed ≠ []
  · have hwhole : s.whole ≠ [] := by simpa [whole, ahead, spent, hr, h.1, reassemble] using h.2
    rw [if_pos ⟨hwhole, by simp [stream, h.1]⟩]
    simp [finish, h.1, h.2, bare]
  · rw [not_and_or, not_not] at h
    rw [finish_bare h, if_neg]
    · rw [stream, List.map_reverse]
    · rintro ⟨hwhole, hnil⟩
      have hseg : s.segments = [] := by simpa [stream] using hnil
      have hc : s.consumed = [] := h.resolve_left (absurd hseg)
      exact hwhole (by simp [whole, ahead, spent, hr, hseg, hc, reassemble])

end Stream

section Outcome
variable {file : Text} {s t : Scanner}

theorem Reaches.outcome_eq (h : Reaches s t) : s.outcome file = t.outcome file := by
  rw [outcome, h.run_eq, outcome]

theorem outcome_of_rest_nil (hm : s.mode.Outside) (hr : s.rest = []) :
    s.outcome file = .ok (orEmptyCode s.whole (s.stream ++ s.pendingCode)) := by
  have hdone : s.step = .done (s.flush .code).finish := by
    rw [step_eq, hr]
    rcases hm with hm | hm <;> rw [hm] <;> rfl
  rw [outcome, run_of_done hdone, ← stream_flush_code, ← whole_flush .code s,
    ← finish_bare_eq (s.flush .code) (by simpa using hr)]
  rfl

end Outcome

/-- At the start of a line with the given number, or at the end of the file. -/
structure AtLine (s : Scanner) (n : Nat) : Prop where
  outside : s.mode.Outside
  base : s.rest ≠ [] → s.mode = .base ∧ s.line = n
  idle : s.held = [] ↔ s.start? = none

section AtLine
variable {body ending more : Text} {s : Scanner} {n : Nat}

theorem rest_ne_nil (hne : body ++ ending ≠ []) (hs : s.rest = body ++ ending ++ more) :
    s.rest ≠ [] := by
  rw [hs]
  exact fun h => hne (List.append_eq_nil_iff.mp h).1

theorem AtLine.perform (h : AtLine s n) (hb : '\n' ∉ body) (he : EndsLine ending more)
    (hne : body ++ ending ≠ []) (hs : s.rest = body ++ ending ++ more) {script : List Op}
    (hscript : extent script = (body ++ ending).length) {mode : Mode} (hout : mode.Outside)
    (hmode : more ≠ [] → mode = .base)
    (hidle : (s.perform script).held = [] ↔ (s.perform script).start? = none) :
    AtLine ((s.perform script).enter mode) (n + 1) := by
  have hrest : (s.perform script).rest = more := by rw [perform_rest, hs, hscript, List.drop_left]
  refine ⟨hout, fun hm => ⟨hmode (hrest ▸ hm), ?_⟩, hidle⟩
  have hnext : ending = ['\n'] := by
    rcases he with he | ⟨-, he⟩
    · exact he
    · exact absurd (hrest.trans he) hm
  have hline : s.line = n := (h.base (rest_ne_nil hne hs)).2
  rw [enter_line, perform_line, hs, hscript, List.take_left, hline, hnext, Text.newlines,
    List.count_append, List.count_eq_zero.mpr hb]
  rfl

/-- Behind a line the second scanner stands where the first one stood, with the segment of the line
added to what has been emitted and held. -/
structure Advances (more : Text) (n : Nat) (found : List Segment) (s s' : Scanner) : Prop where
  atLine : AtLine s' (n + 1)
  rest_eq : s'.rest = more
  whole_eq : s'.whole = s.whole
  reaches : Reaches s s'
  merged : ∀ later, s'.stream ++ mergeCode (s'.pendingCode ++ later) =
    s.stream ++ mergeCode (s.pendingCode ++ (found ++ later))

/-- A segment that is no code separates what is held from what comes later. -/
theorem mergeCode_pendingCode {x : Segment} (hx : x.kind ≠ .code) (s : Scanner)
    (later : List Segment) :
    mergeCode (s.pendingCode ++ (x :: later)) = s.pendingCode ++ (x :: mergeCode later) := by
  rw [pendingCode]
  split
  · exact mergeCode_cons_of_ne hx
  · exact mergeCode_code_cons_of_ne hx

section Advance
variable (h : AtLine s n) (hb : '\n' ∉ body) (he : EndsLine ending more)
variable (hne : body ++ ending ≠ []) (hs : s.rest = body ++ ending ++ more)
include h hb he hne hs

theorem AtLine.advance_code (ht : LineCommentsOnly s.rest) (ho : opensLine s.rest = false) :
    ∃ s', Advances more n [{ kind := .code, content := body ++ ending, line := n }] s s' := by
  obtain ⟨hm, hline⟩ := h.base (rest_ne_nil hne hs)
  obtain ⟨mode, hout, hmode, hreach⟩ := reaches_codeLine hb he hne hm hs ht ho
  have htake : s.rest.take (body ++ ending).length = body ++ ending := by rw [hs, List.take_left]
  have hheld : (s.keep (body ++ ending).length).held = s.held ++ (body ++ ending) := by
    rw [keep_held, htake]
  have hstart : (s.keep (body ++ ending).length).start? = some (s.start?.getD n) := by
    rw [keep_start?, htake, if_neg hne, hline]
  have hnew : s.held ++ (body ++ ending) ≠ [] := fun h => hne (List.append_eq_nil_iff.mp h).2
  refine ⟨_, ?_, ?_, ?_, hreach, ?_⟩
  · have hextent : extent [.keep (body ++ ending).length] = (body ++ ending).length := rfl
    exact h.perform hb he hne hs hextent hout hmode
      ⟨fun hnil => absurd (hheld.symm.trans hnil) hnew,
        fun hnone => by cases hstart.symm.trans hnone⟩
  · rw [enter_rest, keep_rest, hs, List.drop_left]
  · simp
  · intro later
    have hpending : ((s.keep (body ++ ending).length).enter mode).pendingCode =
        [{ kind := .code, content := s.held ++ (body ++ ending),
           line := (s.start?.getD n : Nat) }] := by
      rw [pendingCode, if_neg (by rw [enter_held, hheld]; exact hnew)]
      simp only [bare, pending, enter_held, hheld, enter_start?, hstart, Option.getD_some]
    rw [hpending, stream_enter, stream_keep, pendingCode]
    split
    · next hnil => simp [hnil, h.idle.mp hnil]
    · rw [List.singleton_append, List.singleton_append, List.singleton_append,
        mergeCode_code_cons_code rfl rfl]
      simp [bare, pending, hline]

theorem AtLine.advance_dropped (hplan : plan .base s.rest = .go (dropScript s.rest)) :
    ∃ s', Advances more n [] s s' := by
  obtain ⟨hm, hline⟩ := h.base (rest_ne_nil hne hs)
  have hstep : s.step = .next (s.perform (dropScript s.rest)) :=
    step_next_iff.mpr ⟨_, by rw [hm, hplan], rfl⟩
  have hextent : extent [.skip (wholeLine s.rest)] = (body ++ ending).length := by
    rw [hs, ← wholeLine_line hb he]
    simp [extent, Op.extent]
  have hpending : (s.perform (dropScript s.rest)).pendingCode = s.pendingCode := by
    by_cases hheld : s.held = []
    · simp [dropScript, apply, pendingCode, hheld]
    · obtain ⟨k, hk⟩ := Option.ne_none_iff_exists'.mp (mt h.idle.mpr hheld)
      simp [dropScript, apply, pendingCode, hheld, bare, pending, hk]
  refine ⟨_, ?_, ?_, perform_whole s _, .step hstep (.refl _), ?_⟩
  · exact h.perform hb he hne hs hextent (.inl rfl) (fun _ => rfl) h.idle
  · rw [perform_rest, extent_dropScript, hs, wholeLine_line hb he, List.drop_left]
  · intro later
    rw [hpending]
    rfl

/-- A comment or a clear mark is emitted behind the code that is held. -/
theorem AtLine.advance_mark {kind : Kind} (hk : kind ≠ .code) {words : Text} (moves : List Op)
    (hplan : plan .base s.rest =
      .go (.flush .code :: .begin :: (moves ++ [.flush kind, .enter .base])))
    (hextent : extent moves = (body ++ ending).length)
    (hheld : ((s.flush .code).begin.perform moves).held = words)
    (hstart : ((s.flush .code).begin.perform moves).start? = some s.line)
    (hstream : ((s.flush .code).begin.perform moves).stream = (s.flush .code).stream) :
    ∃ s', Advances more n [{ kind, content := words, line := n }] s s' := by
  obtain ⟨hm, hline⟩ := h.base (rest_ne_nil hne hs)
  obtain ⟨script, hscript⟩ : ∃ script,
      script = .flush .code :: .begin :: (moves ++ [.flush kind]) := ⟨_, rfl⟩
  have hperform : s.perform script = ((s.flush .code).begin.perform moves).flush kind := by
    rw [hscript, perform_cons, perform_cons, perform_append]
    rfl
  have hstep : s.step = .next ((s.perform script).enter .base) := by
    refine step_next_iff.mpr ⟨_, by rw [hm, hplan], ?_⟩
    rw [hperform, perform_cons, perform_cons, perform_append]
    rfl
  have hsum : extent script = (body ++ ending).length := by
    rw [← hextent, hscript, extent_cons, extent_cons, extent_append]
    simp [extent, Op.extent]
  refine ⟨(s.perform script).enter .base, ?_, ?_, ?_, .step hstep (.refl _), ?_⟩
  · apply h.perform hb he hne hs hsum (.inl rfl) (fun _ => rfl)
    rw [hperform]
    simp
  · rw [enter_rest, perform_rest, hsum, hs, List.drop_left]
  · rw [whole_enter, perform_whole]
  · intro later
    have hpending : ((s.perform script).enter .base).pendingCode = [] := by
      rw [pendingCode, enter_held, hperform, flush_held, if_pos rfl]
    rw [hpending, stream_enter, hperform, stream_flush _ hk, hstream, stream_flush_code,
      List.nil_append, List.singleton_append, mergeCode_pendingCode hk]
    simp [bare, pending, hheld, hstart, hline]

theorem AtLine.advance_clear (hplan : plan .base s.rest = .go (clearScript s.rest)) :
    ∃ s', Advances more n [{ kind := .clear, content := [], line := n }] s s' := by
  apply h.advance_mark hb he hne hs (by decide) [.skip (wholeLine s.rest)] hplan
  · rw [hs, ← wholeLine_line hb he]
    simp [extent, Op.extent]
  · simp [apply]
  · simp [apply]
  · simp [apply]

theorem AtLine.advance_comment (ht : LineCommentsOnly s.rest) (ho : opensLine body)
    (hplan : plan .base s.rest = .go (commentScript s.rest)) :
    ∃ s', Advances more n
      [{ kind := .lineComment, content := body.drop (lineCommentLead body), line := n }] s s' := by
  have hle := lineCommentLead_le ho
  have hbehind : s.rest.drop (lineCommentLead s.rest) =
      body.drop (lineCommentLead body) ++ ending ++ more := by
    rw [hs, lineCommentLead_line he ho, List.append_assoc, List.drop_append_of_le_length hle,
      List.append_assoc]
  have hwords : Text.dropEnding "\r" (Text.firstLine (s.rest.drop (lineCommentLead s.rest))) =
      body.drop (lineCommentLead body) := by
    have hfree : '\n' ∉ body.drop (lineCommentLead body) := fun hm => hb (List.mem_of_mem_drop hm)
    have hreturn : '\r' ∉ body.drop (lineCommentLead body) := by
      intro hm
      apply ht.return_notMem
      rw [hs]
      exact List.mem_append_left _ (List.mem_append_left _ (List.mem_of_mem_drop hm))
    rw [hbehind, Text.firstLine_line hfree he]
    exact Text.dropEnding_of_notMem hreturn
  have hend : lineEnd ((s.rest.drop (lineCommentLead s.rest)).drop
      (body.drop (lineCommentLead body)).length) = ending.length := by
    rw [hbehind, List.append_assoc, List.drop_left, lineEnd_line he]
  have hscript : commentScript s.rest = [.flush .code, .begin, .skip (lineCommentLead s.rest),
      .keep (body.drop (lineCommentLead body)).length, .skip ending.length, .flush .lineComment,
      .enter .base] := by
    simp only [commentScript, hwords, hend]
  rw [hscript] at hplan
  apply h.advance_mark hb he hne hs (by decide) [_, _, _] hplan
  · rw [hs, lineCommentLead_line he ho]
    simp only [extent, Op.extent, List.length_drop, List.length_append]
    omega
  · simp [apply, hbehind]
  · simp [apply, keep_start?]
  · simp [apply]

end Advance

end AtLine

/-- From the start of a line on, the run follows the lines of the rest. -/
theorem outcome_eq (file : Text) {t : Text} : ∀ {s : Scanner} {n : Nat}, s.rest = t → AtLine s n →
    LineCommentsOnly t → s.outcome file = (ofLines file n (Text.physicalLines t)).map fun found =>
      orEmptyCode s.whole (s.stream ++ mergeCode (s.pendingCode ++ found)) := by
  induction t using Text.line_induction with
  | nil =>
      intro s n hs h _
      have hmerge : mergeCode (s.pendingCode ++ []) = s.pendingCode := by
        rw [pendingCode]
        split <;> rfl
      simp only [outcome_of_rest_nil h.outside hs, Text.physicalLines, ofLines, Except.map, hmerge]
  | line body ending more hb he hne ih =>
      intro s n hs h ht
      have hnext : ∀ {found s'}, Advances more n found s s' →
          s.outcome file = (ofLines file (n + 1) (Text.physicalLines more)).map fun later =>
            orEmptyCode s.whole (s.stream ++ mergeCode (s.pendingCode ++ (found ++ later))) := by
        intro found s' ha
        rw [ha.reaches.outcome_eq, ih ha.rest_eq ha.atLine ht.of_append, ha.whole_eq]
        simp only [ha.merged]
      have hclass := linePlan hb he hne ht
      rw [← hs] at ht hclass
      have hfirst : Text.firstLine (body ++ ending) = body := by
        have hend : EndsLine ending [] := EndsLine.of_append (y := more) he
        have hline := Text.firstLine_line hb hend
        rwa [List.append_nil] at hline
      rw [Text.physicalLines_line hb he hne, ofLines, hfirst]
      generalize LineClass.ofLine body = cls at hclass ⊢
      cases hclass with
      | code ho =>
          obtain ⟨s', ha⟩ := h.advance_code hb he hne hs ht ho
          rw [hnext ha]
          cases ofLines file (n + 1) (Text.physicalLines more) <;> rfl
      | dropped hplan =>
          obtain ⟨s', ha⟩ := h.advance_dropped hb he hne hs hplan
          rw [hnext ha]
          rfl
      | clear hplan =>
          obtain ⟨s', ha⟩ := h.advance_clear hb he hne hs hplan
          rw [hnext ha]
          cases ofLines file (n + 1) (Text.physicalLines more) <;> rfl
      | comment ho hplan =>
          obtain ⟨s', ha⟩ := h.advance_comment hb he hne hs ht ho hplan
          rw [hnext ha]
          cases ofLines file (n + 1) (Text.physicalLines more) <;> rfl
      | @unknown flag hplan =>
          obtain ⟨hm, hline⟩ := h.base (rest_ne_nil hne hs)
          have hreturn : '\r' ∉ body := by
            intro hmem
            apply ht.return_notMem
            rw [hs]
            exact List.mem_append_left _ (List.mem_append_left _ hmem)
          have hexcerpt : Text.dropEnding "\r" (Text.firstLine s.rest) = body := by
            rw [hs, Text.firstLine_line hb he]
            exact Text.dropEnding_of_notMem hreturn
          have hfail : s.step = .failed (.unknownDirective flag) s := by
            rw [step_eq, hm, hplan]
            rfl
          rw [outcome, run_of_failed hfail]
          simp only [Except.mapError, Except.map, report, hline, hexcerpt]

end Scanner

namespace Segment
open Scanner

/-- In a file without quotes, carriage returns and block comments, scanning gives the outline that
is made line by line. -/
theorem scan_eq_outline (file : Text) {text : Text} (hd : '"' ∉ text) (hs : '\'' ∉ text)
    (hr : '\r' ∉ text) (hb : Text.occursIn "/*" text = false) :
    (scan file text).map (List.map bare) = outline file text :=
  outcome_eq file rfl ⟨.inl rfl, fun _ => ⟨rfl, rfl⟩, ⟨fun _ => rfl, fun _ => rfl⟩⟩ ⟨hd, hs, hr, hb⟩

/-- Code around a dropped line and with a comment inside, a clear mark and a comment that ends the
file. -/
theorem scan_eq_outline_mixed :
    (scan "a.sol" "a // b\n //+ignore+ c\n\td\n//+clear+\n//  e").map (List.map bare) =
      .ok [{ kind := .code, content := "a // b\n\td\n", line := 1 },
        { kind := .clear, content := [], line := 4 },
        { kind := .lineComment, content := "e", line := 5 }] := by
  rw [scan_eq_outline "a.sol" (by decide) (by decide) (by decide) (by decide)]
  rfl

end Segment

end Marginalia
