import Marginalia.Proofs.Foresight
import Marginalia.Proofs.Onset

/-!
# Where in a run segments are emitted

A segment of a file was pending in a scanner of its run. Code is emitted in front of a comment, or
where the file ends; a line comment or a clear mark behind its own line; a block comment behind its
terminator. What holds of every scanner of a run is thereby known of every segment. Lines that are
dropped at the end of a file go to the last segment, which has been emitted by then, and a file of
dropped lines only has no segment but an empty one.
-/
namespace Marginalia

namespace Marker

theorem not_drops_of_clear {t : Text} (h : directive? t = some ("clear" : Text)) : ¬Drops t := by
  rintro (hl | hi)
  · rw [isLicenseTag_of_directive? h] at hl
    cases hl
  · rw [h] at hi
    exact absurd hi (by decide)

end Marker

/-- A segment whose source goes on. -/
def Segment.extend (s : Segment) (tail : Text) : Segment := { s with source := s.source ++ tail }

namespace Scanner
open Marker Segment

/-- A scanner of the run on a text that is about to emit its pending segment as one of some kind. -/
inductive Emits (text : Text) : Kind → Scanner → Prop
  | code {r : Scanner} : Reaches (ofText text) r → r.mode = .base →
      opensLine r.rest ∨ opensBlock r.rest → r.held ≠ [] → Emits text .code r
  | final {r : Scanner} : Reaches (ofText text) r → r.mode.Outside → r.rest = [] → r.held ≠ [] →
      Emits text .code r
  | line {r : Scanner} {kind : Kind} (moves : List Op) : Reaches (ofText text) r → r.mode = .base →
      opensLine r.rest → ¬Drops r.rest → kind = .lineComment ∨ kind = .clear →
      (∀ op ∈ moves, op.Moves) → margin r.rest + 2 ≤ extent moves →
      Emits text kind ((r.flush .code).begin.perform moves)
  | block {r : Scanner} {indent : Nat} (moves : List Op) : Reaches (ofText text) r →
      r.mode = .block indent → (∀ op ∈ moves, op.Moves) → Emits text .blockComment (r.perform moves)

theorem Emits.of_code {text : Text} {s : Scanner} (h : Emits text .code s) :
    Reaches (ofText text) s ∧ s.mode.Outside ∧ s.held ≠ [] ∧
      (s.mode = .base ∧ (opensLine s.rest ∨ opensBlock s.rest) ∨ s.rest = []) := by
  generalize hk : Kind.code = kind at h
  cases h with
  | code hr hm ho hheld => exact ⟨hr, .inl hm, hheld, .inl ⟨hm, ho⟩⟩
  | final hr hm hrest hheld => exact ⟨hr, hm, hheld, .inr hrest⟩
  | line _ _ _ _ _ hline _ _ =>
      rw [← hk] at hline
      simp at hline
  | block _ _ _ _ => cases hk

/-- Finished segments, the last one first, in front of the text `after`, each of them emitted on the
run. -/
def Chronicle (text : Text) : List Segment → Text → Prop
  | [], _ => True
  | last :: before, after =>
      (∃ s, Emits text last.kind s ∧ s.segments = before ∧ s.rest = after ∧
        last = s.pending last.kind) ∧
      Chronicle text before (last.source ++ after)

section Emission
variable {text : Text} {s t : Scanner}

theorem Chronicle.emits {later earlier : List Segment} {x : Segment} {after : Text}
    (h : Chronicle text (later.reverse ++ x :: earlier) after) :
    ∃ s, Emits text x.kind s ∧ s.segments = earlier ∧ s.rest = reassemble later ++ after ∧
      x = s.pending x.kind := by
  induction later using List.reverseRecOn generalizing after with
  | nil => exact h.1
  | append_singleton later last ih =>
      rw [List.reverse_append] at h
      simpa using ih h.2

theorem Chronicle.flush {kind : Kind} (h : Chronicle text s.segments s.ahead)
    (he : Emits text kind s) (hk : kind ≠ .code ∨ s.held ≠ []) :
    Chronicle text (s.flush kind).segments (s.flush kind).ahead := by
  rw [flush_eq hk]
  exact ⟨⟨s, he, rfl, rfl, rfl⟩, h⟩

theorem Chronicle.flush_code (h : Chronicle text s.segments s.ahead)
    (he : s.held ≠ [] → Emits text .code s) :
    Chronicle text (s.flush .code).segments (s.flush .code).ahead := by
  by_cases hheld : s.held = []
  · rw [flush_code_of_held_nil hheld]
    exact h
  · exact h.flush (he hheld) (.inr hheld)

/-- The mark behind the pending code is emitted by the step that emits the code. -/
theorem Chronicle.line {kind : Kind} (hr : Reaches (ofText text) s) (hm : s.mode = .base)
    (ho : opensLine s.rest) (hd : ¬Drops s.rest) (hk : kind = .lineComment ∨ kind = .clear)
    (moves : List Op) (hmoves : ∀ op ∈ moves, op.Moves)
    (hext : margin s.rest + 2 ≤ extent moves) (h : Chronicle text s.segments s.ahead) :
    Chronicle text (((s.flush .code).begin.perform moves).flush kind).segments
      (((s.flush .code).begin.perform moves).flush kind).ahead := by
  have hne : kind ≠ .code := by rcases hk with rfl | rfl <;> decide
  obtain ⟨hseg, hahead⟩ := perform_moves (s.flush .code).begin moves hmoves
  refine Chronicle.flush ?_ (.line moves hr hm ho hd hk hmoves hext) (.inl hne)
  rw [hseg, hahead]
  exact h.flush_code fun hheld => .code hr hm (.inl ho) hheld

theorem Chronicle.step (hr : Reaches (ofText text) s) (hstep : s.step = .next t)
    (h : Chronicle text s.segments s.ahead) : Chronicle text t.segments t.ahead := by
  cases step_move hstep with
  | keep _ _ => simpa using h
  | drop _ _ _ => simpa using h
  | clear hm ho hd =>
      exact Chronicle.line hr hm ho (not_drops_of_clear hd) (.inr rfl)
        [.skip (wholeLine s.rest)] (by simp [Op.Moves]) (margin_add_two_le_wholeLine ho) h
  | lineComment hm ho hl hd ht hu =>
      have hdrops : ¬Drops s.rest := by
        rintro (hdrop | hdrop)
        · rw [hl] at hdrop
          cases hdrop
        · rw [hd] at hdrop
          cases hdrop
      rw [hu, ht]
      refine Chronicle.line hr hm ho hdrops (.inl rfl) [.skip _, .keep _, .skip _]
        (by simp [Op.Moves]) ?_ h
      simp only [extent, Op.extent, lineCommentLead]
      omega
  | openBlock hm ho => simpa using h.flush_code fun hheld => .code hr hm (.inr ho) hheld
  | blockLine _ _ ht _ => simpa [ht] using h
  | closeBlock hm ht _ hu =>
      rw [skipTrailing_eq, hu, ht]
      refine Chronicle.flush ?_ (.block [.skip _, .keep _, .skip _, .skip _] hr hm ?_)
        (.inl (by decide))
      · simpa using h
      · simp [Op.Moves]

theorem Reaches.chronicle (h : Reaches (ofText text) s) : Chronicle text s.segments s.ahead :=
  h.invariant_of_step (P := fun s => Chronicle text s.segments s.ahead) trivial
    fun hr hstep hs => hs.step hr hstep

/-- What has been consumed behind the last segment goes to its source. -/
theorem finish_of_segments {last : Segment} {before : List Segment}
    (h : s.segments = last :: before) :
    s.finish = before.reverse ++ [last.extend s.spent] := by
  unfold finish
  split
  · next hc => simp [h, spent, hc, extend]
  · simp [h, spent, extend]

/-- Every segment of a file was emitted on its run, but for the one of a file that holds nothing but
dropped lines. -/
theorem exists_emits {p q : List Segment} {x : Segment}
    (h : (ofText text).run = .ok (p ++ x :: q)) :
    (∃ s tail, Emits text x.kind s ∧ s.segments = p.reverse ∧ s.rest = tail ++ reassemble q ∧
      x = (s.pending x.kind).extend tail ∧ DroppedLines (reassemble q) tail ∧
      (q = [] ∨ tail = [])) ∨
    p = [] ∧ q = [] ∧ DroppedLines [] text ∧
      x = { kind := .code, content := [], line := 1, source := text } := by
  obtain ⟨t, hreach, hdone⟩ := run_ok_iff.mp h
  obtain ⟨hm, hrest, hfound⟩ := step_done hdone
  have hchron : Chronicle text (t.flush .code).segments (t.flush .code).ahead :=
    hreach.chronicle.flush_code fun hheld => .final hreach hm hrest hheld
  have hdropped := ((hreach.dated (.ofText text)).flush_code hm).2.dropped
  have hwhole : (t.flush .code).whole = text := (whole_flush .code t).trans hreach.whole_eq
  rw [flush_rest, hrest] at hdropped
  rw [ahead, flush_rest, hrest, List.append_nil] at hchron
  rw [whole, ahead, flush_rest, hrest, List.append_nil] at hwhole
  cases hseg : (t.flush .code).segments with
  | nil =>
      right
      rw [hseg] at hwhole
      have hspent : (t.flush .code).spent = text := hwhole
      unfold finish at hfound
      split at hfound
      · simp [hseg] at hfound
      · simp only [hseg] at hfound
        obtain ⟨rfl, hfound⟩ := List.append_eq_singleton_iff.mp hfound |>.resolve_right (by simp)
        obtain ⟨rfl, rfl⟩ := List.cons_eq_cons.mp hfound
        exact ⟨rfl, rfl, hspent ▸ hdropped, by rw [← hspent]; rfl⟩
  | cons last before =>
      left
      rw [finish_of_segments hseg] at hfound
      rw [hseg] at hchron
      -- Only the last segment of the file can have grown behind its emission.
      rcases List.eq_nil_or_concat q with rfl | ⟨later, y, rfl⟩
      · obtain ⟨rfl, hx⟩ := List.append_inj' hfound rfl
        obtain ⟨rfl, -⟩ := List.cons_eq_cons.mp hx
        obtain ⟨⟨s, he, hs, hafter, hlast⟩, -⟩ := hchron
        refine ⟨s, (t.flush .code).spent, he, by simp [hs], by simp [hafter, reassemble], ?_,
          hdropped, .inl rfl⟩
        rw [hlast]
        rfl
      · rw [List.concat_eq_append, ← List.cons_append, ← List.append_assoc] at hfound
        obtain ⟨hbefore, hy⟩ := List.append_inj' hfound rfl
        obtain ⟨rfl, -⟩ := List.cons_eq_cons.mp hy
        have hrev : before = later.reverse ++ x :: p.reverse := by
          rw [← List.reverse_reverse before, ← hbefore]
          simp
        rw [hrev] at hchron
        obtain ⟨s, he, hs, hafter, hx⟩ := hchron.2.emits
        refine ⟨s, [], he, hs, ?_, ?_, .done, .inr rfl⟩
        · simp [hafter, extend]
        · rw [extend, List.append_nil]
          exact hx

end Emission

end Scanner

end Marginalia
