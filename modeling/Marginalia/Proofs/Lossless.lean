import Marginalia.Proofs.Scanner

/-!
# Segmenting loses nothing

The sources of the finished segments, the text spent since the last of them and the rest of the file
are the whole file at every moment of a run. No move changes that text: moving the cursor shifts
characters from the rest to the spent text, and a flush shifts the spent text to a segment.
-/
namespace Marginalia

namespace Segment

@[simp] theorem reassemble_append (a b : List Segment) :
    reassemble (a ++ b) = reassemble a ++ reassemble b := by
  simp [reassemble]

@[simp] theorem reassemble_singleton (s : Segment) : reassemble [s] = s.source := by
  simp [reassemble]

end Segment

namespace Scanner

/-- The text behind the finished segments. -/
def ahead (s : Scanner) : Text := s.spent ++ s.rest

/-- The whole file, as far as the scanner knows it. -/
def whole (s : Scanner) : Text := Segment.reassemble s.segments.reverse ++ s.ahead

@[simp] theorem ahead_skip (n : Nat) (s : Scanner) : (s.skip n).ahead = s.ahead := by
  simp [ahead]

@[simp] theorem ahead_keep (n : Nat) (s : Scanner) : (s.keep n).ahead = s.ahead := by
  simp [ahead]

@[simp] theorem ahead_begin (s : Scanner) : s.begin.ahead = s.ahead := rfl

@[simp] theorem ahead_enter (mode : Mode) (s : Scanner) : (s.enter mode).ahead = s.ahead := rfl

@[simp] theorem ahead_skipTrailing (s : Scanner) : s.skipTrailing.ahead = s.ahead := by
  simp only [skipTrailing]
  split
  · rfl
  · exact ahead_skip _ s

@[simp] theorem whole_skip (n : Nat) (s : Scanner) : (s.skip n).whole = s.whole := by
  simp [whole]

@[simp] theorem whole_keep (n : Nat) (s : Scanner) : (s.keep n).whole = s.whole := by
  simp [whole]

@[simp] theorem whole_skipTrailing (s : Scanner) : s.skipTrailing.whole = s.whole := by
  simp [whole]

@[simp] theorem whole_begin (s : Scanner) : s.begin.whole = s.whole := rfl

@[simp] theorem whole_enter (mode : Mode) (s : Scanner) : (s.enter mode).whole = s.whole := rfl

@[simp] theorem whole_flush (kind : Kind) (s : Scanner) : (s.flush kind).whole = s.whole := by
  by_cases h : kind ≠ .code ∨ s.held ≠ []
  · rw [flush_eq h]
    simp [whole, ahead, spent, pending]
  · simp only [not_or, not_not] at h
    rw [h.1, flush_code_of_held_nil h.2]
    rfl

theorem Move.whole_eq {s t : Scanner} (h : Move s t) : t.whole = s.whole := by
  cases h with
  | keep => simp
  | drop => simp
  | clear => simp
  | lineComment _ _ _ _ ht hu => simp [ht, hu]
  | openBlock => simp
  | blockLine _ _ ht => simp [ht]
  | closeBlock _ ht _ hu => simp [ht, hu]

theorem Reaches.whole_eq {s t : Scanner} (h : Reaches s t) : t.whole = s.whole :=
  h.invariant (fun hm hs => hm.whole_eq.trans hs) rfl

theorem reassemble_finish (s : Scanner) :
    Segment.reassemble s.finish = Segment.reassemble s.segments.reverse ++ s.spent := by
  unfold finish
  split
  · next hc => simp [spent, hc]
  · cases s.segments with
    | nil => simp [spent, Segment.reassemble]
    | cons last before => simp [spent]

/-- The text is used up when a run is over. -/
theorem reassemble_of_step_done {s : Scanner} {segments : List Segment}
    (h : s.step = .done segments) : Segment.reassemble segments = s.whole := by
  obtain ⟨_, hrest, rfl⟩ := step_done h
  rw [reassemble_finish, ← whole_flush .code s, whole, ahead, flush_rest, hrest, List.append_nil]

theorem reassemble_run {s : Scanner} {segments : List Segment} (h : s.run = .ok segments) :
    Segment.reassemble segments = s.whole := by
  obtain ⟨t, hreach, hdone⟩ := run_ok_iff.mp h
  rw [reassemble_of_step_done hdone, hreach.whole_eq]

end Scanner

namespace Segment

theorem scan_eq_ok {file text : Text} {segments : List Segment} :
    scan file text = .ok segments ↔ (Scanner.ofText text).run = .ok segments := by
  unfold scan
  cases (Scanner.ofText text).run <;> simp [Except.mapError]

/-- The sources of the segments of a file, one behind the other, are the file. -/
theorem reassemble_scan {file text : Text} {segments : List Segment}
    (h : scan file text = .ok segments) : reassemble segments = text := by
  obtain ⟨t, hreach, hdone⟩ := Scanner.run_ok_iff.mp (scan_eq_ok.mp h)
  calc reassemble segments = t.whole := Scanner.reassemble_of_step_done hdone
    _ = (Scanner.ofText text).whole := hreach.whole_eq
    _ = text := rfl

/-- A comment between dropped lines, one of them with a lone carriage return, takes them all. -/
theorem reassemble_scan_dropped_lines :
    ∃ comment : Segment,
      scan "a.sol" "//+ignore+ x\ry\n// z\r\n//+ignore+" = .ok [comment] ∧
      reassemble [comment] = "//+ignore+ x\ry\n// z\r\n//+ignore+" := by
  have h : scan "a.sol" "//+ignore+ x\ry\n// z\r\n//+ignore+" =
      .ok [{ kind := .lineComment, content := "z", line := 2,
             source := "//+ignore+ x\ry\n// z\r\n//+ignore+" }] := by
    with_unfolding_all rfl
  exact ⟨_, h, reassemble_scan h⟩

end Segment

end Marginalia
