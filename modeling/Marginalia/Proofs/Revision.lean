import Marginalia.Card.Finished
import Mathlib.Data.List.Forall2

/-!
# Cards follow their segments

How segments are gathered depends on their kinds alone. If the contents and the lines of a stream
are revised, kind by kind, its cards are the old cards with the same revision; and what finishing a
card shows of its code is fixed by the card, whatever the press does.
-/
namespace Marginalia

/-- A segment with revised content and line. The source is of no concern to cards. -/
structure Segment.Revises (f : Kind → Text → Text) (g : Int → Int) (s s' : Segment) : Prop where
  kind : s'.kind = s.kind
  content : s'.content = f s.kind s.content
  line : s'.line = g s.line

namespace Card

/-- A card with revised contents and line. -/
def revise (f : Kind → Text → Text) (g : Int → Int) (c : Card) : Card :=
  { c with
    startLine := g c.startLine
    code := c.code.map (f .code)
    lineComments := c.lineComments.map (f .lineComment)
    blockComments := c.blockComments.map (f .blockComment) }

section Revise
variable {f : Kind → Text → Text} {g : Int → Int} {s s' : Segment}

theorem hasCode_revise (c : Card) : (c.revise f g).hasCode = c.hasCode := by
  simp [hasCode, revise]

theorem revise_addCode (h : s.Revises f g s') (hk : s.kind = .code) (c : Card) :
    (c.revise f g).addCode s' = (c.addCode s).revise f g := by
  simp only [addCode, hasCode_revise]
  simp only [revise, h.content, h.line, hk]
  split <;> simp

variable (hf : ∀ kind t, commentBody (f kind t) = f kind (commentBody t))
include hf

theorem revise_addLineComment (h : s.Revises f g s') (hk : s.kind = .lineComment) (c : Card) :
    (c.revise f g).addLineComment s' = (c.addLineComment s).revise f g := by
  simp [addLineComment, revise, h.content, hk, hf]

theorem revise_addBlockComment (h : s.Revises f g s') (hk : s.kind = .blockComment) (c : Card) :
    (c.revise f g).addBlockComment s' = (c.addBlockComment s).revise f g := by
  simp [addBlockComment, revise, h.content, hk, hf]

theorem gatherInto_revise (hg : g 0 = 0) {segments segments' : List Segment}
    (h : List.Forall₂ (Segment.Revises f g) segments segments') (c : Card) :
    gatherInto (c.revise f g) segments' = (gatherInto c segments).map (revise f g) := by
  have hempty : ({} : Card) = ({} : Card).revise f g := by simp [revise, hg]
  induction h generalizing c with
  | nil => rfl
  | @cons s s' rest rest' hs _ ih =>
      have hclosed : (c.revise f g).closed = c.closed := rfl
      have hclose : (c.revise f g).close = c.close.revise f g := rfl
      cases hk : s.kind with
      | code =>
          simp only [gatherInto, hs.kind, hk, hclosed]
          split
          · rw [hempty, revise_addCode hs hk, ih, ← hempty]
            rfl
          · rw [revise_addCode hs hk, ih]
      | clear =>
          simp only [gatherInto, hs.kind, hk, hclose]
          exact ih _
      | lineComment =>
          simp only [gatherInto, hs.kind, hk, hclosed, hasCode_revise, hclose]
          split
          · rw [hempty, revise_addLineComment hf hs hk, ih, ← hempty]
            rfl
          · rw [revise_addLineComment hf hs hk, ih]
      | blockComment =>
          simp only [gatherInto, hs.kind, hk, hclosed, hasCode_revise, hclose]
          split
          · rw [hempty, revise_addBlockComment hf hs hk, ih, ← hempty]
            rfl
          · rw [revise_addBlockComment hf hs hk, ih]
      | unknown number =>
          simp only [gatherInto, hs.kind, hk]
          exact ih _

/-- The cards of a revised stream are the revised cards. -/
theorem gather_revise (hg : g 0 = 0) {segments segments' : List Segment}
    (h : List.Forall₂ (Segment.Revises f g) segments segments') :
    gather segments' = (gather segments).map (revise f g) := by
  have hempty : ({} : Card) = ({} : Card).revise f g := by simp [revise, hg]
  rw [gather, hempty]
  exact gatherInto_revise hf hg h {}

end Revise

/-- The code panel of a card: its code and the numbers beside it, or nothing if it is blank. -/
def panel (c : Card) : Text × Text :=
  let code := joinCode c.code
  if code.isBlank then ([], []) else (code, gutter c.startLine code)

section Panel
variable {σ ε α β : Type} {press : Press (StateT σ (Except ε))}

/-- A press that came through two things one after the other came through each of them. -/
theorem run_bind_eq_ok {x : StateT σ (Except ε) α} {k : α → StateT σ (Except ε) β} {a : σ}
    {r : β × σ} (h : (x >>= k).run a = .ok r) :
    ∃ v b, x.run a = .ok (v, b) ∧ (k v).run b = .ok r := by
  rw [StateT.run_bind] at h
  cases hx : x.run a with
  | error e =>
      rw [hx] at h
      cases h
  | ok p =>
      rw [hx] at h
      exact ⟨p.1, p.2, rfl, h⟩

theorem finish_panel {c : Card} {finished : FinishedCard} {a b : σ}
    (h : (finish press c).run a = .ok (finished, b)) :
    (finished.code, finished.gutter) = c.panel := by
  unfold finish at h
  obtain ⟨_, _, _, h⟩ := run_bind_eq_ok h
  obtain ⟨_, _, _, h⟩ := run_bind_eq_ok h
  simp only at h
  simp only [panel]
  split at h
  · next hb =>
    cases h
    rw [if_pos hb]
  · next hb =>
    obtain ⟨_, _, _, h⟩ := run_bind_eq_ok h
    cases h
    rw [if_neg hb]

/-- What every card passes on to the finished card is passed on by all of them, in order. -/
theorem finishAll_map {γ : Type} {g : FinishedCard → γ} {g' : Card → γ}
    (hg : ∀ {c f a b}, (finish press c).run a = .ok (f, b) → g f = g' c)
    {cards : List Card} {finished : List FinishedCard} {a b : σ}
    (h : (finishAll press cards).run a = .ok (finished, b)) :
    finished.map g = cards.map g' := by
  induction cards generalizing finished a with
  | nil =>
      cases h
      rfl
  | cons c cards ih =>
      rw [finishAll, List.mapM_cons] at h
      obtain ⟨f, _, hf, h⟩ := run_bind_eq_ok h
      obtain ⟨fs, _, hfs, h⟩ := run_bind_eq_ok h
      cases h
      rw [List.map_cons, List.map_cons, hg hf, ih hfs]

theorem finishAll_panels {cards : List Card} {finished : List FinishedCard} {a b : σ}
    (h : (finishAll press cards).run a = .ok (finished, b)) :
    finished.map (fun f => (f.code, f.gutter)) = cards.map panel :=
  finishAll_map finish_panel h

end Panel

end Card

end Marginalia
