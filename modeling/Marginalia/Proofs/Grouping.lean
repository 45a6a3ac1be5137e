import Marginalia.Card.Basic
import Mathlib.Data.List.SplitBy

/-!
# Cards are the greedy runs of a stream

A run is a stretch of comments, then code, then clear marks. Reading a stream from left to right, a
run ends only where it has to: where something else follows a clear mark, or a comment follows code.
Gathering gives one card for each of these runs, made of the segments of that run and of no others.
-/
namespace Marginalia

namespace Segment

def isComment (s : Segment) : Bool := s.kind = .lineComment || s.kind = .blockComment

def isCode (s : Segment) : Bool := s.kind = .code

def isClear (s : Segment) : Bool := s.kind = .clear

/-- The content without leading carriage returns and line feeds. -/
def words (s : Segment) : Text := s.content.dropWhile fun c => c == '\r' || c == '\n'

/-- Segments of other kinds are skipped. -/
def isKnown (s : Segment) : Bool := s.isComment || s.isCode || s.isClear

/-- Whether a run that holds the first segment must end in front of the second one. -/
def isBoundary (x y : Segment) : Bool := x.isClear && !y.isClear || x.isCode && y.isComment

/-- Comments, then code, then clear marks. -/
def IsRun (run : List Segment) : Prop :=
  ∃ comments code clears, run = comments ++ code ++ clears ∧ (∀ s ∈ comments, s.isComment) ∧
    (∀ s ∈ code, s.isCode) ∧ (∀ s ∈ clears, s.isClear)

/-- The stream, cut exactly at the boundaries between neighbours. -/
def runs (segments : List Segment) : List (List Segment) :=
  (segments.filter isKnown).splitBy fun x y => !isBoundary x y

/-- Neighbours without a boundary between them. -/
def Unbroken (run : List Segment) : Prop := run.IsChain fun x y => !isBoundary x y

/-- What is a boundary for a segment is one for every segment behind it. -/
theorem isBoundary_of_not_isBoundary {x y s : Segment} (hy : y.isKnown)
    (hxy : isBoundary x y = false) (h : isBoundary x s) : isBoundary y s := by
  grind [isBoundary, isKnown, isComment, isCode, isClear]

theorem Unbroken.isBoundary_last {run : List Segment} {x s : Segment} (h : Unbroken run)
    (hknown : ∀ y ∈ run, y.isKnown) (hx : x ∈ run) (hb : isBoundary x s) :
    ∀ y ∈ run.getLast?, isBoundary y s := by
  induction run generalizing x with
  | nil => cases hx
  | cons a run ih =>
      cases run with
      | nil => simp_all
      | cons b run =>
          obtain ⟨hab, hchain⟩ := List.isChain_cons_cons.mp h
          have hb' : isBoundary b s ∨ x ∈ b :: run := by
            rcases List.mem_cons.mp hx with rfl | hx
            · exact .inl (isBoundary_of_not_isBoundary (hknown b (by simp)) (by simpa using hab) hb)
            · exact .inr hx
          have hknown' : ∀ y ∈ b :: run, y.isKnown := fun y hy => hknown y (.tail _ hy)
          rw [List.getLast?_cons_cons]
          rcases hb' with hb' | hx
          · exact ih hchain hknown' (.head _) hb'
          · exact ih hchain hknown' hx hb

theorem isBoundary_of_isComment {x : Segment} (hx : x.isComment) (y : Segment) :
    isBoundary x y = false := by
  grind [isBoundary, isComment, isCode, isClear]

theorem isBoundary_of_isCode {x y : Segment} (hx : x.isCode) (hy : y.isCode ∨ y.isClear) :
    isBoundary x y = false := by
  grind [isBoundary, isComment, isCode, isClear]

theorem isBoundary_of_isClear {x y : Segment} (hx : x.isClear) (hy : y.isClear) :
    isBoundary x y = false := by
  grind [isBoundary, isComment, isCode, isClear]

theorem IsRun.unbroken {run : List Segment} (h : IsRun run) : Unbroken run := by
  obtain ⟨comments, code, clears, rfl, hcomments, hcode, hclears⟩ := h
  have hpair : (comments ++ code ++ clears).Pairwise fun x y => isBoundary x y = false := by
    simp only [List.pairwise_append, List.mem_append]
    refine ⟨⟨?_, ?_, ?_⟩, ?_, ?_⟩
    · exact List.pairwise_of_forall_mem_list fun x hx y _ =>
        isBoundary_of_isComment (hcomments x hx) y
    · exact List.pairwise_of_forall_mem_list fun x hx y hy =>
        isBoundary_of_isCode (hcode x hx) (.inl (hcode y hy))
    · exact fun x hx y _ => isBoundary_of_isComment (hcomments x hx) y
    · exact List.pairwise_of_forall_mem_list fun x hx y hy =>
        isBoundary_of_isClear (hclears x hx) (hclears y hy)
    · rintro x (hx | hx) y hy
      · exact isBoundary_of_isComment (hcomments x hx) y
      · exact isBoundary_of_isCode (hcode x hx) (.inr (hclears y hy))
  exact hpair.isChain.imp fun x y hxy => by simp [hxy]

theorem Unbroken.isRun {run : List Segment} (h : Unbroken run) (hknown : ∀ s ∈ run, s.isKnown) :
    IsRun run := by
  induction run with
  | nil => exact ⟨[], [], [], rfl, by simp, by simp, by simp⟩
  | cons x run ih =>
      obtain ⟨comments, code, clears, rfl, hcomments, hcode, hclears⟩ :=
        ih h.tail fun s hs => hknown s (.tail _ hs)
      have hx := hknown x (.head _)
      simp only [isKnown, Bool.or_eq_true] at hx
      rcases hx with (hx | hx) | hx
      · refine ⟨x :: comments, code, clears, rfl, ?_, hcode, hclears⟩
        simpa using ⟨hx, hcomments⟩
      · cases comments with
        | nil =>
            refine ⟨[], x :: code, clears, rfl, by simp, ?_, hclears⟩
            simpa using ⟨hx, hcode⟩
        | cons c comments =>
            have hc := hcomments c (.head _)
            have hxc := (List.isChain_cons_cons.mp h).1
            simp [isBoundary, hx, hc] at hxc
      · cases comments with
        | nil =>
            cases code with
            | nil =>
                refine ⟨[], [], x :: clears, rfl, by simp, by simp, ?_⟩
                simpa using ⟨hx, hclears⟩
            | cons c code =>
                have hc := hcode c (.head _)
                have hxc := (List.isChain_cons_cons.mp h).1
                simp_all [isBoundary, isCode, isClear]
        | cons c comments =>
            have hc := hcomments c (.head _)
            have hxc := (List.isChain_cons_cons.mp h).1
            simp_all [isBoundary, isComment, isCode, isClear]

end Segment

namespace Card

open Segment

/-- The card of a run. -/
def ofRun (closed : Bool) (run : List Segment) : Card where
  startLine := ((run.filter isCode).head?.map (·.line)).getD 0
  code := (run.filter isCode).map (·.content)
  lineComments := (run.filter (·.kind = .lineComment)).map (·.words)
  blockComments := (run.filter (·.kind = .blockComment)).map (·.words)
  closed

/-- The cards of consecutive runs. All but the last are closed, and the last one is if a clear mark
closed it; without any run there is one empty card. -/
def ofRuns : List (List Segment) → List Card
  | [] => [{}]
  | [run] => [ofRun (run.any isClear) run]
  | run :: next :: later => ofRun true run :: ofRuns (next :: later)

theorem addCode_ofRun {closed : Bool} {run : List Segment} {s : Segment} (h : s.kind = .code) :
    (ofRun closed run).addCode s = ofRun closed (run ++ [s]) := by
  unfold addCode ofRun hasCode
  rw [List.filter_append]
  cases run.filter isCode <;> simp [h, isCode]

theorem addLineComment_ofRun {closed : Bool} {run : List Segment} {s : Segment}
    (h : s.kind = .lineComment) :
    (ofRun closed run).addLineComment s = ofRun closed (run ++ [s]) := by
  simp [addLineComment, ofRun, h, isCode, words, commentBody, Text.trimStart]

theorem addBlockComment_ofRun {closed : Bool} {run : List Segment} {s : Segment}
    (h : s.kind = .blockComment) :
    (ofRun closed run).addBlockComment s = ofRun closed (run ++ [s]) := by
  simp [addBlockComment, ofRun, h, isCode, words, commentBody, Text.trimStart]

theorem close_ofRun {closed : Bool} {run : List Segment} :
    (ofRun closed run).close = ofRun true run := rfl

theorem ofRun_concat_clear {closed : Bool} {run : List Segment} {s : Segment}
    (h : s.kind = .clear) : ofRun closed (run ++ [s]) = ofRun closed run := by
  simp [ofRun, h, isCode]

theorem hasCode_ofRun (closed : Bool) (run : List Segment) :
    (ofRun closed run).hasCode = run.any isCode := by
  induction run with
  | nil => rfl
  | cons s run ih =>
      by_cases h : s.isCode
      · simp [hasCode, ofRun, h]
      · simpa [hasCode, ofRun, h] using ih

/-- In front of a comment, code and clear marks are boundaries. -/
theorem any_isBoundary_comment (run : List Segment) {s : Segment} (hs : s.isComment) :
    run.any (isBoundary · s) = (run.any isCode || run.any isClear) := by
  have hb : ∀ x : Segment, isBoundary x s = (x.isCode || x.isClear) := by
    grind [isBoundary, isComment, isCode, isClear]
  induction run with
  | nil => rfl
  | cons x run ih => grind

/-- One known segment goes to the current card, or to a new one if there is a boundary. -/
theorem gatherInto_cons {run rest : List Segment} {s : Segment} (hs : s.isKnown) :
    gatherInto (ofRun (run.any isClear) run) (s :: rest) =
      if run.any (isBoundary · s) then
        ofRun true run :: gatherInto (ofRun ([s].any isClear) [s]) rest
      else gatherInto (ofRun ((run ++ [s]).any isClear) (run ++ [s])) rest := by
  have hempty : ({} : Card) = ofRun false [] := rfl
  have hclosed : (ofRun (run.any isClear) run).closed = run.any isClear := rfl
  cases hk : s.kind with
  | code =>
      have hany : (isBoundary · s) = isClear := by
        funext x
        simp [isBoundary, isClear, isComment, hk]
      have hs' : s.isClear = false := by simp [isClear, hk]
      simp only [gatherInto, hk, hany, hempty, addCode_ofRun hk, hclosed, List.any_append,
        List.any_cons, List.any_nil, hs', Bool.or_false, List.nil_append]
      split
      · next h => rw [h]
      · rfl
  | lineComment =>
      have hany := any_isBoundary_comment run (by simp [isComment, hk] : s.isComment)
      have hs' : s.isClear = false := by simp [isClear, hk]
      simp only [gatherInto, hk, hany, hempty, addLineComment_ofRun hk, hasCode_ofRun, close_ofRun,
        hclosed, List.any_append, List.any_cons, List.any_nil, hs', Bool.or_false, List.nil_append]
  | blockComment =>
      have hany := any_isBoundary_comment run (by simp [isComment, hk] : s.isComment)
      have hs' : s.isClear = false := by simp [isClear, hk]
      simp only [gatherInto, hk, hany, hempty, addBlockComment_ofRun hk, hasCode_ofRun, close_ofRun,
        hclosed, List.any_append, List.any_cons, List.any_nil, hs', Bool.or_false, List.nil_append]
  | clear =>
      have hany : run.any (isBoundary · s) = false := by
        simp [isBoundary, isClear, isComment, hk]
      have hs' : s.isClear = true := by simp [isClear, hk]
      simp [gatherInto, hk, hany, hs', ofRun_concat_clear hk, close_ofRun]
  | unknown n => simp [isKnown, isComment, isCode, isClear, hk] at hs

theorem gatherInto_unknown {card : Card} {rest : List Segment} {s : Segment}
    (hs : s.isKnown = false) : gatherInto card (s :: rest) = gatherInto card rest := by
  cases hk : s.kind <;> simp_all [gatherInto, isKnown, isComment, isCode, isClear]

theorem ofRuns_cons {run : List Segment} {runs : List (List Segment)} (h : runs ≠ []) :
    ofRuns (run :: runs) = ofRun true run :: ofRuns runs := by
  cases runs with
  | nil => exact absurd rfl h
  | cons next later => rfl

/-- Gathering goes on from the card of a run as if the run stood in front of the stream. -/
theorem gatherInto_ofRun {run : List Segment} (hrun : Unbroken run)
    (hknown : ∀ s ∈ run, s.isKnown) (segments : List Segment) :
    gatherInto (ofRun (run.any isClear) run) segments =
      ofRuns ((run ++ segments.filter isKnown).splitBy fun x y => !isBoundary x y) := by
  induction segments generalizing run with
  | nil =>
      cases run with
      | nil => rfl
      | cons x run =>
          rw [List.filter_nil, List.append_nil, List.splitBy_of_isChain (by simp) hrun]
          rfl
  | cons s rest ih =>
      cases hs : s.isKnown with
      | false => rw [gatherInto_unknown hs, ih hrun hknown, List.filter_cons_of_neg (by simp [hs])]
      | true =>
          rw [gatherInto_cons hs, List.filter_cons_of_pos hs]
          split
          · next hb =>
            obtain ⟨x, hx, hxs⟩ := List.any_eq_true.mp hb
            have hlast := hrun.isBoundary_last hknown hx hxs
            rw [List.splitBy_append_cons _ (by simpa using hlast),
              List.splitBy_of_isChain (List.ne_nil_of_mem hx) hrun, List.singleton_append,
              ofRuns_cons (by simp), ih (List.isChain_singleton s) (by simpa using hs)]
            rfl
          · next hb =>
            have hrun' : Unbroken (run ++ [s]) := by
              refine List.isChain_append.mpr ⟨hrun, List.isChain_singleton s, ?_⟩
              intro x hx y hy
              cases hy
              simp only [List.any_eq_true, not_exists, not_and] at hb
              simpa using hb x (List.mem_of_getLast? hx)
            have hknown' : ∀ x ∈ run ++ [s], x.isKnown := by
              simpa [or_imp, forall_and, hs] using hknown
            rw [ih hrun' hknown', List.append_assoc, List.singleton_append]

theorem gather_eq_ofRuns (segments : List Segment) : gather segments = ofRuns (runs segments) :=
  gatherInto_ofRun List.isChain_nil (by simp) segments

section Sorts

variable {f : Card → List Text} {p : Segment → Bool} {text : Segment → Text}

theorem flatMap_ofRuns (hf : ∀ closed run, f (ofRun closed run) = (run.filter p).map text)
    (rs : List (List Segment)) : (ofRuns rs).flatMap f = (rs.flatten.filter p).map text := by
  induction rs with
  | nil => simpa [ofRuns, ofRun] using hf false []
  | cons run rs ih =>
      cases rs with
      | nil => simp [ofRuns, hf]
      | cons next later =>
          have hflat : (run :: next :: later).flatten = run ++ (next :: later).flatten := rfl
          rw [ofRuns_cons (by simp), List.flatMap_cons, hf, ih, hflat, List.filter_append,
            List.map_append]

/-- The cards together hold, of each sort, what the stream holds. -/
theorem flatMap_gather (hf : ∀ closed run, f (ofRun closed run) = (run.filter p).map text)
    (hp : ∀ s, p s → s.isKnown) (segments : List Segment) :
    (gather segments).flatMap f = (segments.filter p).map text := by
  have hfilter : (segments.filter isKnown).filter p = segments.filter p := by
    rw [List.filter_filter]
    apply List.filter_congr
    intro s _
    by_cases hs : p s
    · simp [hs, hp s hs]
    · simp [hs]
  rw [gather_eq_ofRuns, flatMap_ofRuns hf, runs, List.flatten_splitBy, hfilter]

end Sorts

end Card

namespace Segment

theorem isKnown_of_mem_runs {segments run : List Segment} (h : run ∈ runs segments) :
    ∀ s ∈ run, s.isKnown := by
  intro s hs
  have hmem : s ∈ (runs segments).flatten := List.mem_flatten.mpr ⟨run, h, hs⟩
  rw [runs, List.flatten_splitBy] at hmem
  exact (List.mem_filter.mp hmem).2

theorem isRun_of_mem_runs {segments run : List Segment} (h : run ∈ runs segments) : IsRun run :=
  Unbroken.isRun (List.isChain_of_mem_splitBy h) (isKnown_of_mem_runs h)

/-- A run takes as much as it can: with the first segment of the next run it would be none. -/
theorem runs_maximal (segments : List Segment) :
    (runs segments).IsChain fun run next => ∀ s ∈ next.head?, ¬IsRun (run ++ [s]) := by
  refine (List.isChain_getLast_head_splitBy _ (segments.filter isKnown)).imp ?_
  rintro run next ⟨hrun, hnext, hb⟩ s hs hrun'
  have hlast := (List.isChain_append.mp hrun'.unbroken).2.2 (run.getLast hrun)
    (List.getLast?_eq_getLast_of_ne_nil hrun) s rfl
  have hhead : next.head hnext = s := (List.head_eq_iff_head?_eq_some hnext).mpr hs
  rw [hhead] at hb
  rw [hb] at hlast
  cases hlast

end Segment

namespace Card

open Segment

/-- One segment changes the current card, or puts it away for a new one. -/
theorem gatherInto_step (card : Card) (s : Segment) :
    (∃ next, ∀ rest, gatherInto card (s :: rest) = gatherInto next rest) ∨
      ∃ full next, ∀ rest, gatherInto card (s :: rest) = full :: gatherInto next rest := by
  simp only [gatherInto]
  split
  · split
    · exact .inr ⟨_, _, fun _ => rfl⟩
    · exact .inl ⟨_, fun _ => rfl⟩
  · exact .inl ⟨_, fun _ => rfl⟩
  · split
    · exact .inr ⟨_, _, fun _ => rfl⟩
    · exact .inl ⟨_, fun _ => rfl⟩
  · split
    · exact .inr ⟨_, _, fun _ => rfl⟩
    · exact .inl ⟨_, fun _ => rfl⟩
  · exact .inl ⟨_, fun _ => rfl⟩

/-- What is gathered later does not touch any card but the current one. -/
theorem gatherInto_append (card : Card) (segments more : List Segment) :
    ∃ full last, gatherInto card segments = full ++ [last] ∧
      gatherInto card (segments ++ more) = full ++ gatherInto last more := by
  induction segments generalizing card with
  | nil => exact ⟨[], card, rfl, rfl⟩
  | cons s rest ih =>
      rcases gatherInto_step card s with ⟨next, hstep⟩ | ⟨first, next, hstep⟩
      · obtain ⟨full, last, h, hmore⟩ := ih next
        exact ⟨full, last, (hstep rest).trans h, (hstep (rest ++ more)).trans hmore⟩
      · obtain ⟨full, last, h, hmore⟩ := ih next
        refine ⟨first :: full, last, ?_, ?_⟩
        · rw [hstep, h, List.cons_append]
        · rw [List.cons_append, hstep, hmore, List.cons_append]

theorem head?_gatherInto_of_closed {card : Card} (h : card.closed) (segments : List Segment) :
    (gatherInto card segments).head? = some card := by
  have hclose : card.close = card := by
    rw [close, ← h]
  induction segments with
  | nil => rfl
  | cons s rest ih => cases hk : s.kind <;> simp [gatherInto, hk, h, hclose, ih]

/-- A closed card stays as it is, whatever follows in the stream. -/
theorem getElem?_gather_append {segments : List Segment} {i : Nat} {card : Card}
    (h : (gather segments)[i]? = some card) (hc : card.closed) (more : List Segment) :
    (gather (segments ++ more))[i]? = some card := by
  obtain ⟨full, last, hfull, hmore⟩ := gatherInto_append {} segments more
  rw [gather, hfull] at h
  rw [gather, hmore]
  rcases Nat.lt_trichotomy i full.length with hi | rfl | hi
  · rwa [List.getElem?_append_left hi] at h ⊢
  · rw [List.getElem?_append_right le_rfl, Nat.sub_self] at h ⊢
    cases h
    rw [← List.head?_eq_getElem?]
    exact head?_gatherInto_of_closed hc more
  · simp [List.getElem?_append_right hi.le, Nat.sub_ne_zero_of_lt hi] at h

/-- Gathering is greedy: there is one card for each maximal run, in order. So the cards together
hold all code and all comments once and in order, and a closed card takes nothing more. -/
theorem gather_greedy (segments : List Segment) :
    ((runs segments).flatten = segments.filter isKnown ∧
      (∀ run ∈ runs segments, run ≠ [] ∧ IsRun run) ∧
      (runs segments).IsChain fun run next => ∀ s ∈ next.head?, ¬IsRun (run ++ [s])) ∧
    gather segments = ofRuns (runs segments) ∧
    ((gather segments).flatMap (·.code) = (segments.filter isCode).map (·.content) ∧
      (gather segments).flatMap (·.lineComments) =
        (segments.filter (·.kind = .lineComment)).map (·.words) ∧
      (gather segments).flatMap (·.blockComments) =
        (segments.filter (·.kind = .blockComment)).map (·.words)) ∧
    ∀ (i : Nat) (card : Card), (gather segments)[i]? = some card → card.closed →
      ∀ more, (gather (segments ++ more))[i]? = some card := by
  refine ⟨⟨List.flatten_splitBy _ _, ?_, runs_maximal segments⟩, gather_eq_ofRuns segments,
    ⟨?_, ?_, ?_⟩, fun i card h hc more => getElem?_gather_append h hc more⟩
  · intro run hrun
    exact ⟨List.ne_nil_of_mem_splitBy hrun, isRun_of_mem_runs hrun⟩
  · exact flatMap_gather (fun _ _ => rfl) (fun s hs => by simp [isKnown, hs]) segments
  · exact flatMap_gather (fun _ _ => rfl) (fun s hs => by simp_all [isKnown, isComment]) segments
  · exact flatMap_gather (fun _ _ => rfl) (fun s hs => by simp_all [isKnown, isComment]) segments

end Card

end Marginalia
