import Marginalia.Segment.Basic
import Marginalia.Segment.Error
import Marginalia.Segment.Marker

/-!
# Scanning a file into segments

The scanner knows comment markers and string literals, and nothing else of the language it reads. It
moves over the file one step at a time. At the start of a line, and in the blanks there, it is in
`base` mode and recognizes comments of their own; behind the first other character of a line it is
in `code` mode, where comments belong to the code; `block` mode stands at the start of each physical
line of a block comment.

Every step either ends the run or leaves a shorter rest (`step_next_lt`), which is why the run needs
no bound of its own.
-/
namespace Marginalia

/-- Where in its line the scanner stands. Inside a block comment it also knows how far the lines of
the comment are indented. -/
inductive Mode where
  | base
  | code
  | block (indent : Nat)
deriving DecidableEq, Repr

/-- The scanner at its cursor. The pending segment is kept with its last character first. -/
structure Scanner where
  mode : Mode
  /-- The text from the cursor on. -/
  rest : Text
  /-- The line of the cursor, counted from one. -/
  line : Nat
  /-- Kept characters of the pending segment, the last one first. -/
  kept : Text
  /-- The line on which the pending segment started, once it has started. -/
  start? : Option Nat
  /-- All characters consumed since the last segment, the last one first. -/
  consumed : Text
  /-- The finished segments, the last one first. -/
  segments : List Segment
deriving Repr

/-- What one step leads to. -/
inductive Step where
  | next (s : Scanner)
  | done (segments : List Segment)
  | failed (fault : Fault) (s : Scanner)

namespace Scanner

/-- The text of a block comment stands one space behind its two-character opener. -/
def blockIndentGap : Nat := 3

def ofText (text : Text) : Scanner :=
  { mode := .base, rest := text, line := 1, kept := [], start? := none, consumed := [],
    segments := [] }

/-- Moves the cursor over `n` characters. -/
def skip (n : Nat) (s : Scanner) : Scanner :=
  { s with
    rest := s.rest.drop n
    line := s.line + Text.newlines (s.rest.take n)
    consumed := (s.rest.take n).reverse ++ s.consumed }

/-- Starts the pending segment on the line of the cursor. -/
def begin (s : Scanner) : Scanner := { s with start? := some s.line }

/-- Moves the cursor over `n` characters and keeps them. The first kept character starts the pending
segment if nothing has started it before. -/
def keep (n : Nat) (s : Scanner) : Scanner :=
  match s.rest.take n with
  | [] => s
  | span =>
    { s.skip n with
      kept := span.reverse ++ s.kept
      start? := some (s.start?.getD s.line) }

def enter (mode : Mode) (s : Scanner) : Scanner := { s with mode := mode }

/-- Finishes the pending segment. Code is only emitted if something was kept; comments and clear
marks always are. -/
def flush (kind : Kind) (s : Scanner) : Scanner :=
  if kind = .code ∧ s.kept = [] then { s with start? := none }
  else
    { s with
      segments :=
        { kind, content := s.kept.reverse, line := (s.start?.getD s.line : Nat),
          source := s.consumed.reverse } :: s.segments
      kept := []
      consumed := []
      start? := none }

/-- The segments of the whole file. What was consumed behind the last segment goes to the source of
that segment; a file without any segment is one empty code segment. -/
def finish (s : Scanner) : List Segment :=
  if s.consumed = [] then s.segments.reverse
  else
    match s.segments with
    | [] => [{ kind := .code, content := [], line := 1, source := s.consumed.reverse }]
    | last :: before => ({ last with source := last.source ++ s.consumed.reverse } :: before).reverse

/-- One step at a line comment of its own. License tags and ignore directives are dropped. -/
def stepLineComment (s : Scanner) : Step :=
  if Marker.isLicenseTag s.rest then
    .next ((s.skip (Marker.wholeLine s.rest)).enter .base)
  else
    match Marker.directive? s.rest with
    | some flag =>
      if flag = ("ignore" : Text) then
        .next ((s.skip (Marker.wholeLine s.rest)).enter .base)
      else if flag = ("clear" : Text) then
        let t := (s.flush .code).begin
        .next (((t.skip (Marker.wholeLine t.rest)).flush .clear).enter .base)
      else .failed (.unknownDirective flag) s
    | none =>
      let t := ((s.flush .code).begin).skip (Marker.lineCommentLead s.rest)
      let body := Text.dropEnding "\r" (Text.firstLine t.rest)
      let u := t.keep body.length
      .next (((u.skip (Marker.lineEnd u.rest)).flush .lineComment).enter .base)

/-- One step at the start of a line or in the blanks there. -/
def stepBase (s : Scanner) : Step :=
  if Marker.opensBlock s.rest then
    let m := Marker.margin s.rest
    .next ((((s.flush .code).begin).skip (m + 2)).enter (.block (m + blockIndentGap)))
  else if Marker.opensLine s.rest then s.stepLineComment
  else .next ((s.keep 1).enter (if s.rest.head?.any isSpace then .base else .code))

/-- One step behind the first character of a line of code. -/
def stepCode (s : Scanner) : Step :=
  match s.rest with
  | '/' :: '*' :: _ =>
    match Marker.blockComment? s.rest with
    | none => .failed .unterminatedBlock s
    | some n => .next ((s.keep n).enter .code)
  | '/' :: '/' :: _ => .next ((s.keep (Marker.wholeLine s.rest)).enter .base)
  | '\r' :: '\n' :: _ => .next ((s.keep 2).enter .base)
  | '\n' :: _ => .next ((s.keep 1).enter .base)
  | _ => .next ((s.keep 1).enter .code)

/-- One step over a physical line of a block comment. Blanks behind the terminator are dropped if
they end the line. -/
def stepBlock (indent : Nat) (s : Scanner) : Step :=
  match s.rest with
  | [] => .failed .unterminatedBlock s
  | _ :: _ =>
    let t := s.skip (Marker.marginUpTo indent s.rest)
    match Text.cut? "*/" (Text.firstLine t.rest) with
    | some (body, _) =>
      let u := (t.keep body.length).skip 2
      let trailing := Marker.margin u.rest
      let ending := Marker.lineEnd (u.rest.drop trailing)
      let v := if ending = 0 then u else u.skip (trailing + ending)
      .next ((v.flush .blockComment).enter .base)
    | none => .next ((t.keep (Marker.wholeLine t.rest)).enter (.block indent))

/-- One step of the scanner. Outside block comments a string literal is taken as a whole. -/
def step (s : Scanner) : Step :=
  match s.mode with
  | .block indent => s.stepBlock indent
  | mode =>
    match s.rest with
    | [] => .done (s.flush .code).finish
    | _ :: _ =>
      match Marker.literal? s.rest with
      | some n => .next ((s.keep n).enter .code)
      | none => if mode = .base then s.stepBase else s.stepCode

@[simp] theorem skip_rest (n : Nat) (s : Scanner) : (s.skip n).rest = s.rest.drop n := rfl

@[simp] theorem begin_rest (s : Scanner) : s.begin.rest = s.rest := rfl

@[simp] theorem enter_rest (mode : Mode) (s : Scanner) : (s.enter mode).rest = s.rest := rfl

@[simp] theorem keep_rest (n : Nat) (s : Scanner) : (s.keep n).rest = s.rest.drop n := by
  unfold keep
  split
  · next h =>
    rcases List.take_eq_nil_iff.1 h with rfl | h
    · rfl
    · simp [h]
  · rfl

@[simp] theorem flush_rest (kind : Kind) (s : Scanner) : (s.flush kind).rest = s.rest := by
  unfold flush
  split <;> rfl

end Scanner

namespace Marker

/-- A marker behind the margin leaves room for it in the text. -/
theorem margin_add_two_le {marker t : Text} (hm : marker.length = 2)
    (h : Text.opens marker (t.drop (margin t))) : margin t + 2 ≤ t.length := by
  have key : ∀ {m u : Text}, (Text.dropOpening? m u).isSome → m.length ≤ u.length := by
    intro m
    induction m with
    | nil => intro u _; exact Nat.zero_le _
    | cons o os ih =>
      intro u hu
      cases u with
      | nil => simp [Text.dropOpening?] at hu
      | cons c cs =>
        simp only [Text.dropOpening?] at hu
        split at hu
        · simpa using ih hu
        · simp at hu
  have := key h
  simp only [List.length_drop, hm] at this
  omega

/-- A nonempty text has a first line with a positive length, line end included. -/
theorem wholeLine_pos {t : Text} (h : t ≠ []) : 0 < wholeLine t := by
  cases t with
  | nil => exact absurd rfl h
  | cons c cs =>
    by_cases hc : c = '\n'
    · subst hc
      simp [wholeLine, lineLength, Text.firstLine, lineEnd]
    · have : lineLength (c :: cs) = lineLength cs + 1 := by
        simp [lineLength, Text.firstLine, hc]
      rw [wholeLine, this]
      omega

end Marker

namespace Scanner

/-- A line comment of its own is consumed. -/
theorem stepLineComment_next_lt {s t : Scanner} (hopen : Marker.opensLine s.rest)
    (h : s.stepLineComment = .next t) : t.rest.length < s.rest.length := by
  have hlen : Marker.margin s.rest + 2 ≤ s.rest.length := Marker.margin_add_two_le rfl hopen
  have hpos : 0 < Marker.wholeLine s.rest :=
    Marker.wholeLine_pos (by intro h0; rw [h0] at hlen; simp at hlen)
  unfold stepLineComment at h
  split at h
  · cases h
    simp only [enter_rest, skip_rest, List.length_drop]
    omega
  · split at h
    · split at h
      · cases h
        simp only [enter_rest, skip_rest, List.length_drop]
        omega
      · split at h
        · cases h
          simp only [enter_rest, flush_rest, skip_rest, begin_rest, List.length_drop]
          omega
        · cases h
    · cases h
      simp only [enter_rest, flush_rest, skip_rest, keep_rest, begin_rest, List.length_drop,
        Marker.lineCommentLead]
      omega

/-- One step over a line of a block comment consumes something. -/
theorem stepBlock_next_lt {indent : Nat} {s t : Scanner} (h : s.stepBlock indent = .next t) :
    t.rest.length < s.rest.length := by
  unfold stepBlock at h
  split at h
  · cases h
  · next c cs hrest =>
    have hpos : 0 < s.rest.length := by simp [hrest]
    simp only at h
    split at h
    · split at h
      all_goals
        cases h
        simp only [enter_rest, flush_rest, skip_rest, keep_rest, List.length_drop]
        omega
    · cases h
      by_cases hz : (s.rest.drop (Marker.marginUpTo indent s.rest)) = []
      · simp only [enter_rest, keep_rest, skip_rest, hz]
        simpa using hpos
      · have := Marker.wholeLine_pos hz
        simp only [enter_rest, keep_rest, skip_rest, List.length_drop]
        omega

/-- A literal has at least its quotes. -/
theorem literal?_pos {t : Text} {n : Nat} (h : Marker.literal? t = some n) : 0 < n := by
  cases t with
  | nil => simp [Marker.literal?] at h
  | cons q cs =>
    simp only [Marker.literal?] at h
    split at h
    · obtain ⟨m, _, rfl⟩ := Option.map_eq_some_iff.1 h
      omega
    · cases h

/-- Every step that does not end the run consumes something. -/
theorem step_next_lt {s t : Scanner} (h : s.step = .next t) :
    t.rest.length < s.rest.length := by
  unfold step at h
  split at h
  · exact stepBlock_next_lt h
  · split at h
    · cases h
    · next c cs hrest =>
      have hpos : 0 < s.rest.length := by simp [hrest]
      split at h
      · next n hn =>
        have := literal?_pos hn
        cases h
        simp only [enter_rest, keep_rest, List.length_drop]
        omega
      · split at h
        · unfold stepBase at h
          split at h
          · cases h
            simp only [enter_rest, flush_rest, skip_rest, begin_rest, List.length_drop]
            omega
          · split at h
            · next hopen => exact stepLineComment_next_lt hopen h
            · cases h
              simp only [enter_rest, keep_rest, List.length_drop]
              omega
        · unfold stepCode at h
          split at h
          · split at h
            · cases h
            · next n hn =>
              obtain ⟨m, _, rfl⟩ := Option.map_eq_some_iff.1 hn
              cases h
              simp only [enter_rest, keep_rest, List.length_drop]
              omega
          · have := Marker.wholeLine_pos (List.length_pos_iff.1 hpos)
            cases h
            simp only [enter_rest, keep_rest, List.length_drop]
            omega
          all_goals
            cases h
            simp only [enter_rest, keep_rest, List.length_drop]
            omega

/-- Runs the scanner to its end. -/
def run (s : Scanner) : Except (Fault × Scanner) (List Segment) :=
  match _h : s.step with
  | .next t => run t
  | .done segments => .ok segments
  | .failed fault place => .error (fault, place)
termination_by s.rest.length
decreasing_by exact step_next_lt _h

/-- The parse error for a fault at the cursor of a scanner. -/
def report (file : Text) (fault : Fault) (s : Scanner) : ParseError :=
  { fault, file, line := s.line, excerpt := Text.dropEnding "\r" (Text.firstLine s.rest) }

end Scanner

/-- The segments of one file. The file name only labels errors. -/
def Segment.scan (file text : Text) : Except ParseError (List Segment) :=
  (Scanner.ofText text).run.mapError fun (fault, s) => s.report file fault

end Marginalia
