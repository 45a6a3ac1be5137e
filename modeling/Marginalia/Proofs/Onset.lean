import Marginalia.Proofs.Choice
import Marginalia.Proofs.Decomposition

/-!
# Where segments begin

A segment begins behind the dropped lines that its source starts with: code with its first kept
character, a comment or a clear mark with its opener behind the margin. The line of a segment is the
line on which it begins. The proof follows the scanner, which is idle as long as nothing but dropped
lines has been spent since the last segment, and has started a segment from then on.
-/
namespace Marginalia

theorem Text.newlines_append (a b : Text) :
    Text.newlines (a ++ b) = Text.newlines a + Text.newlines b := by
  simp [Text.newlines]

theorem Text.newlines_cons (c : Char) (t : Text) :
    Text.newlines (c :: t) = Text.newlines t + if c = '\n' then 1 else 0 := by
  simp [Text.newlines, List.count_cons]

theorem Blanks.newlines_eq {t : Text} (h : Blanks t) : Text.newlines t = 0 :=
  List.count_eq_zero.mpr h.newline_notMem

namespace Segment
open Marker

/-- The number of characters in front of the beginning of a segment. -/
def onset (s : Segment) : Nat :=
  lead s.source + if s.kind = .code then 0 else margin (s.source.drop (lead s.source))

/-- A segment between two texts has its line from the place behind its dropped lines. -/
structure Begins (front after : Text) (s : Segment) (dropped own : Text) : Prop where
  source_eq : s.source = dropped ++ own
  lines : DroppedLines (own ++ after) dropped
  kept : ¬Drops (own ++ after)
  own_ne : own ≠ []
  line_eq : s.line = (1 + Text.newlines (front ++ dropped) : Nat)

/-- Finished segments, the last one first, in front of the text `after`. -/
def Placed : List Segment → Text → Prop
  | [], _ => True
  | last :: before, after =>
      (∃ dropped own, Begins (reassemble before.reverse) after last dropped own) ∧
        Placed before (last.source ++ after)

theorem Placed.begins {later earlier : List Segment} {s : Segment} {after : Text}
    (h : Placed (later.reverse ++ s :: earlier) after) :
    ∃ dropped own,
      Begins (reassemble earlier.reverse) (reassemble later ++ after) s dropped own := by
  induction later using List.reverseRecOn generalizing after with
  | nil => exact h.1
  | append_singleton later last ih =>
      rw [List.reverse_append] at h
      simpa using ih h.2

theorem Begins.lead_eq {front after dropped own : Text} {s : Segment}
    (h : Begins front after s dropped own) : lead s.source = dropped.length := by
  rw [h.source_eq, h.lines.lead_append h.kept]

/-- The line of a segment counts the line feeds in front of its beginning. -/
theorem Begins.line_onset {front after dropped own : Text} {s : Segment}
    (h : Begins front after s dropped own) (behind : Text) :
    s.line = (1 + Text.newlines
      ((front ++ s.source ++ behind).take (front.length + s.onset)) : Nat) := by
  obtain ⟨m, hm⟩ : ∃ m, m = if s.kind = .code then 0 else margin own := ⟨_, rfl⟩
  have honset : s.onset = dropped.length + m := by
    rw [onset, h.lead_eq, h.source_eq, List.drop_left, hm]
  have hle : m ≤ own.length := by
    rw [hm]
    split
    · exact Nat.zero_le _
    · exact margin_le_length own
  have hfree : Text.newlines (own.take m) = 0 := by
    rw [hm]
    split
    · rfl
    · exact (blanks_take_margin own).newlines_eq
  have htake : (front ++ s.source ++ behind).take (front.length + s.onset) =
      front ++ dropped ++ own.take m := by
    rw [h.source_eq, honset, ← Nat.add_assoc, ← List.length_append, ← List.append_assoc front,
      List.append_assoc _ own, List.take_length_add_append, List.take_append_of_le_length hle]
  rw [h.line_eq, htake, Text.newlines_append (front ++ dropped), hfree, Nat.add_zero]

end Segment

namespace Scanner
open Marker Segment

/-- The text in front of the cursor. -/
def passed (s : Scanner) : Text := reassemble s.segments.reverse ++ s.spent

theorem Reaches.passed_append {text : Text} {s : Scanner} (h : Reaches (ofText text) s) :
    s.passed ++ s.rest = text := by
  rw [passed, List.append_assoc]
  exact h.whole_eq

/-- The line of the cursor counts the line feeds in front of it. -/
def Counted (s : Scanner) : Prop := s.line = 1 + Text.newlines s.passed

theorem Counted.apply {s : Scanner} (h : Counted s) (op : Op) : Counted (s.apply op) := by
  unfold Counted passed at h ⊢
  cases op with
  | skip n =>
      simp only [Scanner.apply, skip_line, skip_segments, skip_spent, h, ← List.append_assoc]
      rw [Text.newlines_append (_ ++ s.spent), Nat.add_assoc]
  | keep n =>
      simp only [Scanner.apply, keep_line, keep_segments, keep_spent, h, ← List.append_assoc]
      rw [Text.newlines_append (_ ++ s.spent), Nat.add_assoc]
  | begin => exact h
  | flush kind =>
      simp only [Scanner.apply]
      by_cases hk : kind ≠ .code ∨ s.held ≠ []
      · rw [flush_eq hk]
        simpa [spent, pending] using h
      · simp only [not_or, not_not] at hk
        rw [hk.1, flush_code_of_held_nil hk.2]
        exact h
  | enter mode => exact h

theorem Counted.perform {s : Scanner} (h : Counted s) (script : List Op) :
    Counted (s.perform script) := by
  induction script generalizing s with
  | nil => exact h
  | cons op script ih => exact ih (h.apply op)

/-- An operation that does nothing but move the cursor. -/
def Op.Moves : Op → Prop
  | .skip _ => True
  | .keep _ => True
  | .begin => False
  | .flush _ => False
  | .enter _ => False

theorem perform_moves (s : Scanner) (script : List Op) (h : ∀ op ∈ script, op.Moves) :
    (s.perform script).segments = s.segments ∧ (s.perform script).ahead = s.ahead := by
  induction script generalizing s with
  | nil => exact ⟨rfl, rfl⟩
  | cons op script ih =>
      obtain ⟨hop, hscript⟩ := List.forall_mem_cons.mp h
      obtain ⟨hseg, ha⟩ := ih (s.apply op) hscript
      rw [perform_cons, hseg, ha]
      cases op with
      | skip n => simp [apply]
      | keep n => simp [apply]
      | begin => exact hop.elim
      | flush kind => exact hop.elim
      | enter mode => exact hop.elim

/-- Nothing but dropped lines has been spent since the last segment. -/
structure Idle (s : Scanner) : Prop where
  held : s.held = []
  start? : s.start? = none
  dropped : DroppedLines s.rest s.spent

/-- A segment has been started behind dropped lines. -/
structure Started (s : Scanner) (dropped own : Text) : Prop where
  spent_eq : s.spent = dropped ++ own
  lines : DroppedLines (own ++ s.rest) dropped
  kept : ¬Drops (own ++ s.rest)
  start_eq : s.start? = some (1 + Text.newlines (reassemble s.segments.reverse ++ dropped))

section Started
variable {s : Scanner} {dropped own : Text}

theorem Idle.begin (h : Idle s) (hc : Counted s) (hd : ¬Drops s.rest) :
    Started s.begin s.spent [] where
  spent_eq := (List.append_nil _).symm
  lines := h.dropped
  kept := hd
  start_eq := congrArg some hc

theorem Started.skip (h : Started s dropped own) (n : Nat) :
    Started (s.skip n) dropped (own ++ s.rest.take n) where
  spent_eq := by rw [skip_spent, h.spent_eq, List.append_assoc]
  lines := by simpa using h.lines
  kept := by simpa using h.kept
  start_eq := h.start_eq

theorem Started.keep (h : Started s dropped own) (n : Nat) :
    Started (s.keep n) dropped (own ++ s.rest.take n) where
  spent_eq := by rw [keep_spent, h.spent_eq, List.append_assoc]
  lines := by simpa using h.lines
  kept := by simpa using h.kept
  start_eq := by
    rw [keep_start?, h.start_eq, keep_segments]
    split <;> rfl

theorem Started.perform (h : Started s dropped own) (script : List Op)
    (hm : ∀ op ∈ script, op.Moves) :
    Started (s.perform script) dropped (own ++ s.rest.take (extent script)) := by
  induction script generalizing s own with
  | nil => simpa [extent] using h
  | cons op script ih =>
      obtain ⟨hop, hscript⟩ := List.forall_mem_cons.mp hm
      have hnew : Started (s.apply op) dropped (own ++ s.rest.take op.extent) := by
        cases op with
        | skip n => exact h.skip n
        | keep n => exact h.keep n
        | begin => exact hop.elim
        | flush kind => exact hop.elim
        | enter mode => exact hop.elim
      have hrec := ih hnew hscript
      rwa [apply_rest, List.append_assoc, ← List.take_add, ← extent_cons] at hrec

theorem Started.enter (h : Started s dropped own) (mode : Mode) :
    Started (s.enter mode) dropped own :=
  ⟨h.spent_eq, h.lines, h.kept, h.start_eq⟩

theorem Idle.keep (h : Idle s) (hc : Counted s) (hd : ¬Drops s.rest) {n : Nat}
    (hn : s.rest.take n ≠ []) : Started (s.keep n) s.spent (s.rest.take n) where
  spent_eq := keep_spent n s
  lines := by simpa using h.dropped
  kept := by simpa using hd
  start_eq := by
    rw [keep_start?, if_neg hn, h.start?, keep_segments]
    exact congrArg some hc

/-- Emitting a segment that has been started. -/
theorem Started.flush (h : Started s dropped own) (hp : Placed s.segments s.ahead)
    (hown : own ≠ []) {kind : Kind} (hk : kind ≠ .code ∨ s.held ≠ []) :
    Placed (s.flush kind).segments (s.flush kind).ahead ∧ Idle (s.flush kind) := by
  rw [flush_eq hk]
  refine ⟨⟨⟨dropped, own, ?_⟩, hp⟩, rfl, rfl, .done⟩
  constructor
  · exact h.spent_eq
  · exact h.lines
  · exact h.kept
  · exact hown
  · simp [pending, h.start_eq]

end Started

/-- The scanner knows on which lines its segments begin, the pending one included. -/
structure Dated (s : Scanner) : Prop where
  counted : Counted s
  placed : Placed s.segments s.ahead
  pending : s.mode = .base ∧ Idle s ∨
    ∃ dropped own, Started s dropped own ∧ own ≠ [] ∧ (s.mode.Outside → s.held ≠ [])

theorem Dated.ofText (text : Text) : Dated (ofText text) :=
  ⟨rfl, trivial, .inl ⟨rfl, rfl, rfl, .done⟩⟩

section Dated
variable {s : Scanner}

theorem Dated.flush_code (h : Dated s) (hm : s.mode.Outside) :
    Placed (s.flush .code).segments (s.flush .code).ahead ∧ Idle (s.flush .code) := by
  rcases h.pending with ⟨_, hi⟩ | ⟨dropped, own, hs, hown, hheld⟩
  · rw [flush_code_of_held_nil hi.held]
    exact ⟨h.placed, hi.held, rfl, hi.dropped⟩
  · exact hs.flush h.placed hown (.inr (hheld hm))

theorem Dated.keep (h : Dated s) (hm : s.mode.Outside) {n : Nat}
    (hnew : s.mode = .base → ¬Drops s.rest ∧ s.rest.take n ≠ []) (mode : Mode) :
    Dated ((s.keep n).enter mode) := by
  refine ⟨(h.counted.apply (.keep n)).apply (.enter mode), by simpa using h.placed, .inr ?_⟩
  rcases h.pending with ⟨hbase, hi⟩ | ⟨dropped, own, hs, hown, hheld⟩
  · obtain ⟨hd, hn⟩ := hnew hbase
    refine ⟨_, _, (hi.keep h.counted hd hn).enter mode, hn, fun _ => ?_⟩
    simpa [hi.held] using hn
  · refine ⟨_, _, (hs.keep n).enter mode, by simp [hown], fun _ => ?_⟩
    simp [hheld hm]

theorem Dated.drop (h : Dated s) (hm : s.mode = .base) (hd : Drops s.rest) :
    Dated ((s.skip (wholeLine s.rest)).enter .base) := by
  refine ⟨(h.counted.apply (.skip _)).apply (.enter .base), by simpa using h.placed, ?_⟩
  rcases h.pending with ⟨_, hi⟩ | ⟨dropped, own, hs, hown, hheld⟩
  · refine .inl ⟨rfl, hi.held, hi.start?, ?_⟩
    have ht := hi.dropped.advance (droppedLine_take hd).thinned
    simpa [DroppedLines] using ht
  · exact .inr ⟨_, _, (hs.skip _).enter .base, by simp [hown], fun _ => hheld (.inl hm)⟩

/-- A segment that has been started is emitted behind some moves. -/
theorem Started.emit {dropped own : Text} (h : Started s dropped own) (hc : Counted s)
    (hp : Placed s.segments s.ahead) (moves : List Op) (hmoves : ∀ op ∈ moves, op.Moves)
    (hown : own ++ s.rest.take (extent moves) ≠ []) {kind : Kind} (hk : kind ≠ .code) :
    Dated (s.perform (moves ++ [.flush kind, .enter .base])) := by
  obtain ⟨hseg, hahead⟩ := perform_moves s moves hmoves
  rw [← hseg, ← hahead] at hp
  obtain ⟨hp', hi⟩ := (h.perform moves hmoves).flush hp hown (.inl hk)
  rw [perform_append]
  exact ⟨(hc.perform moves).perform [.flush kind, .enter .base], hp',
    .inl ⟨rfl, hi.held, hi.start?, hi.dropped⟩⟩

/-- A block comment that has been started goes on behind some moves. -/
theorem Started.linger {dropped own : Text} (h : Started s dropped own) (hc : Counted s)
    (hp : Placed s.segments s.ahead) (moves : List Op) (hmoves : ∀ op ∈ moves, op.Moves)
    (hown : own ++ s.rest.take (extent moves) ≠ []) (indent : Nat) :
    Dated (s.perform (moves ++ [.enter (.block indent)])) := by
  obtain ⟨hseg, hahead⟩ := perform_moves s moves hmoves
  rw [← hseg, ← hahead] at hp
  rw [perform_append]
  refine ⟨(hc.perform moves).perform [.enter _], hp,
    .inr ⟨dropped, _, (h.perform moves hmoves).enter _, hown, ?_⟩⟩
  rintro (hb | hb) <;> cases hb

/-- A comment or a clear mark is started behind the pending code and emitted. -/
theorem Dated.emit (h : Dated s) (hm : s.mode = .base) (hd : ¬Drops s.rest) (moves : List Op)
    (hmoves : ∀ op ∈ moves, op.Moves) (hown : s.rest.take (extent moves) ≠ []) {kind : Kind}
    (hk : kind ≠ .code) :
    Dated (s.perform (.flush .code :: .begin :: (moves ++ [.flush kind, .enter .base]))) := by
  obtain ⟨hp, hi⟩ := h.flush_code (.inl hm)
  have hc := h.counted.apply (.flush .code)
  have hs := hi.begin hc (by simpa using hd)
  exact hs.emit (hc.apply .begin) hp moves hmoves (by simpa using hown) hk

theorem Dated.openBlock (h : Dated s) (hm : s.mode = .base) (ho : opensBlock s.rest)
    (hd : ¬Drops s.rest) : Dated (s.perform (openScript s.rest)) := by
  obtain ⟨hp, hi⟩ := h.flush_code (.inl hm)
  have hc := h.counted.apply (.flush .code)
  have hs := hi.begin hc (by simpa using hd)
  refine hs.linger (hc.apply .begin) hp [_] (by simp [Op.Moves]) ?_ _
  have htake : s.rest.take (margin s.rest + 2) ≠ [] := by
    rw [take_blockOpener ho]
    simp
  simpa [extent, Op.extent] using htake

theorem Dated.perform_base (h : Dated s) (hm : s.mode = .base) {script : List Op}
    (hscript : BaseScript s.rest script) (hne : s.rest ≠ []) : Dated (s.perform script) := by
  have htake : ∀ {n}, 0 < n → s.rest.take n ≠ [] := by
    intro n hn hnil
    rcases List.take_eq_nil_iff.mp hnil with rfl | hr
    · exact absurd hn (Nat.lt_irrefl 0)
    · exact hne hr
  cases hscript with
  | keep hn _ hd => exact h.keep (.inl hm) (fun _ => ⟨hd, htake hn⟩) _
  | openBlock ho hd => exact h.openBlock hm ho hd
  | line hline =>
      cases hline with
      | drop hd => exact h.drop hm hd
      | clear hd =>
          have hpos : 0 < extent [.skip (wholeLine s.rest)] := by
            simpa [extent, Op.extent] using wholeLine_pos hne
          exact h.emit hm hd [_] (by simp [Op.Moves]) (htake hpos) (by decide)
      | comment hd =>
          refine h.emit hm hd [_, _, _] (by simp [Op.Moves]) (htake ?_) (by decide)
          simp only [extent, Op.extent, lineCommentLead]
          omega

theorem Dated.perform_block (h : Dated s) {indent : Nat} (hm : s.mode = .block indent)
    {script : List Op}
    (hscript : script = blockLineScript indent s.rest ∨
      ∃ body, script = closeScript indent s.rest body) : Dated (s.perform script) := by
  have hpending := h.pending
  rw [hm] at hpending
  obtain ⟨dropped, own, hs, hown, -⟩ := hpending.resolve_left fun hb => by cases hb.1
  rcases hscript with rfl | ⟨body, rfl⟩
  · exact hs.linger h.counted h.placed [_, _] (by simp [Op.Moves]) (by simp [hown]) indent
  · exact hs.emit h.counted h.placed [_, _, _, _] (by simp [Op.Moves])
      (by simp [hown]) (by decide)

theorem Dated.step {t : Scanner} (h : Dated s) (hstep : s.step = .next t) : Dated t := by
  obtain ⟨script, hgo, rfl⟩ := step_next_iff.mp hstep
  cases hm : s.mode with
  | base =>
      rw [hm] at hgo
      have hne : s.rest ≠ [] := by
        intro hr
        rw [hr] at hgo
        cases hgo
      exact h.perform_base hm (plan_base hgo) hne
  | code =>
      rw [hm] at hgo
      obtain ⟨n, mode, _, rfl⟩ := plan_code hgo
      exact h.keep (.inr hm) (fun hb => by rw [hm] at hb; cases hb) mode
  | block indent =>
      rw [hm] at hgo
      exact h.perform_block hm (plan_block hgo)

theorem Reaches.dated {t : Scanner} (hr : Reaches s t) (h : Dated s) : Dated t := by
  induction hr with
  | refl s => exact h
  | step hstep _ ih => exact ih (h.step hstep)

/-- At the end of a file that does not hold dropped lines only, there is a segment. -/
theorem Reaches.segments_ne_nil {text : Text} (hr : Reaches (ofText text) s)
    (hm : s.mode.Outside) (hrest : s.rest = []) (hne : ¬DroppedLines [] text) :
    (s.flush .code).segments ≠ [] := by
  intro hnil
  have hdropped := ((hr.dated (.ofText text)).flush_code hm).2.dropped
  have hwhole : (s.flush .code).whole = text := (whole_flush .code s).trans hr.whole_eq
  rw [flush_rest, hrest] at hdropped
  rw [whole, ahead, flush_rest, hrest, hnil, List.append_nil] at hwhole
  exact hne (hwhole ▸ hdropped)

/-- Dropped lines behind the last segment do not change where it begins. -/
theorem placed_finish (hp : Placed s.segments s.spent) (hne : s.segments ≠ []) :
    Placed s.finish.reverse [] := by
  unfold finish
  split
  · next hc =>
    have hnil : s.spent = [] := by rw [spent, hc, List.reverse_nil]
    rw [List.reverse_reverse]
    rwa [hnil] at hp
  · cases hs : s.segments with
    | nil => exact absurd hs hne
    | cons last before =>
        rw [hs] at hp
        obtain ⟨⟨dropped, own, hb⟩, hp⟩ := hp
        rw [List.reverse_reverse]
        refine ⟨⟨dropped, own ++ s.spent, ?_⟩, ?_⟩
        · constructor
          · rw [hb.source_eq, List.append_assoc]
            rfl
          · rw [List.append_nil]
            exact hb.lines
          · rw [List.append_nil]
            exact hb.kept
          · simp [hb.own_ne]
          · exact hb.line_eq
        · rw [List.append_nil]
          exact hp

end Dated

end Scanner

namespace Segment

/-- Unless a file holds nothing but dropped lines, the line of each of its segments is the line on
which the segment begins. -/
theorem scan_line {file text : Text} {segments : List Segment}
    (h : scan file text = .ok segments) (hne : ¬DroppedLines [] text)
    {before after : List Segment} {s : Segment} (hs : segments = before ++ s :: after) :
    s.line = (1 + Text.newlines (text.take ((reassemble before).length + s.onset)) : Nat) := by
  have htext : reassemble segments = text := Scanner.reassemble_run (scan_eq_ok.mp h)
  obtain ⟨t, hreach, hdone⟩ := Scanner.run_ok_iff.mp (scan_eq_ok.mp h)
  obtain ⟨hm, hrest, hseg⟩ := Scanner.step_done hdone
  obtain ⟨hp, -⟩ := (hreach.dated (.ofText text)).flush_code hm
  rw [Scanner.ahead, Scanner.flush_rest, hrest, List.append_nil] at hp
  have hplaced := Scanner.placed_finish hp (hreach.segments_ne_nil hm hrest hne)
  rw [← hseg, hs, List.reverse_append, List.reverse_cons, List.append_assoc,
    List.singleton_append] at hplaced
  obtain ⟨dropped, own, hb⟩ := hplaced.begins
  rw [List.reverse_reverse] at hb
  rw [hb.line_onset (reassemble after), ← htext, hs]
  simp [reassemble]

end Segment

end Marginalia
