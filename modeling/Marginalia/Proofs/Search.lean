import Mathlib.Data.List.Basic
import Mathlib.Data.Int.Order.Basic
import Marginalia.Proofs.LetterCase
import Marginalia.Proofs.Sorting
import Marginalia.Search

/-!
# What a search finds and in which order

A title without null characters matches a query exactly if the query, with case folded, is a
subsequence of it. The walk through a title settles on a place for a character only where the next
one of the query follows, so it never gives away a match: what is due behind a place stays a
subsequence of what comes there.

The result of a search holds each match once, the scores never increase, and of matches with one
score the later entry comes first.
-/
namespace Marginalia.Search
open scoped List

section Null

theorem ofNat_ne_null {n : Nat} (hvalid : n.isValidChar) (hpos : 0 < n) :
    Char.ofNat n ≠ '\x00' := by
  intro h
  have hcode : (Char.ofNat n).toNat = n := Utf8.toNat_ofNat hvalid
  rw [h] at hcode
  exact Nat.ne_of_lt hpos hcode

/-- The images of the characters of a run are characters, and none of them is null. -/
def avoidsNull (r : CaseRun) : Bool :=
  0 < r.first + r.shift &&
    (r.last + r.shift < 0xD800 || (0xDFFF < r.first + r.shift && r.last + r.shift < 0x110000))

theorem avoidsNull_foldRuns : ∀ r ∈ Text.Case.foldRuns, avoidsNull r = true := by
  decide +kernel

theorem image_ne_null {r : CaseRun} (hr : avoidsNull r) {n : Nat} (hn : r.has n) :
    Char.ofNat (n + r.shift).toNat ≠ '\x00' := by
  simp only [avoidsNull, Bool.and_eq_true, Bool.or_eq_true, decide_eq_true_eq] at hr
  simp only [CharRun.has, Bool.and_eq_true, decide_eq_true_eq] at hn
  refine ofNat_ne_null ?_ (by omega)
  rcases hr.2 with hlow | hhigh
  · exact Or.inl (by omega)
  · exact Or.inr ⟨by omega, by omega⟩

/-- The null character differs from all others in more than case. -/
theorem foldChar_ne_null {c : Char} (h : c ≠ '\x00') : foldChar c ≠ '\x00' := by
  unfold foldChar
  split
  case isTrue hascii =>
    rw [lowerChar, if_pos hascii]
    split
    · exact ofNat_ne_null (Or.inl (by omega)) (by omega)
    · exact h
  case isFalse =>
    refine Text.Case.image_induction (P := (· ≠ '\x00')) ?_ h
    intro r hr hc
    exact image_ne_null (avoidsNull_foldRuns r hr) hc

theorem not_sameLetter_null {c : Char} (h : c ≠ '\x00') : ¬ sameLetter '\x00' c := by
  rw [sameLetter, beq_iff_eq]
  exact (foldChar_ne_null h).symm

end Null

theorem sameLetter_comm (a b : Char) : sameLetter a b = sameLetter b a := BEq.comm

/-- The characters of a query occur in a title in their order, whatever their case. -/
def StandsIn (query title : Text) : Prop := query.map foldChar <+ title.map foldChar

instance (query title : Text) : Decidable (StandsIn query title) :=
  inferInstanceAs (Decidable (_ <+ _))

@[simp] theorem standsIn_nil (title : Text) : StandsIn [] title := List.nil_sublist _

@[simp] theorem standsIn_nil_right {query : Text} : StandsIn query [] ↔ query = [] := by
  simp [StandsIn]

/-- A character of a title may always be taken for the next one of the query, if it can. -/
theorem standsIn_cons {q c : Char} {qs title : Text} :
    StandsIn (q :: qs) (c :: title) ↔ StandsIn (if sameLetter c q then qs else q :: qs) title := by
  split
  case isTrue h =>
    have heq : foldChar c = foldChar q := by simpa [sameLetter] using h
    simp [StandsIn, heq]
  case isFalse h =>
    have hne : foldChar q ≠ foldChar c := fun heq => h (by simp [sameLetter, heq])
    simp [StandsIn, List.cons_sublist_cons', hne]

section Walk

variable {p : Progress} {before? : Option Spot} {s : Spot} {q : Char} {qs : Text}

/-- The streak is never negative, and as long as no place is known any gain is the best. -/
structure Progress.Sound (p : Progress) : Prop where
  streak_nonneg : 0 ≤ p.streak
  best_eq : p.place? = none → p.best = -1

theorem streakGain_nonneg (hp : p.Sound) (before? : Option Spot) : 0 ≤ streakGain p before? := by
  have := hp.streak_nonneg
  unfold streakGain
  split
  · split <;> omega
  · exact Int.le_refl 0

theorem placeGain_nonneg (before? : Option Spot) (s : Spot) : 0 ≤ placeGain before? s := by
  unfold placeGain
  split
  · decide
  · split <;> split <;> decide

@[simp] theorem consider_rest : (p.consider before? s).rest = p.rest := by
  unfold Progress.consider
  grind

@[simp] theorem consider_found : (p.consider before? s).found = p.found := by
  unfold Progress.consider
  grind

theorem consider_sound (hp : p.Sound) : (p.consider before? s).Sound := by
  have hstreak := streakGain_nonneg hp before?
  have := hp.streak_nonneg
  have := hp.best_eq
  unfold Progress.consider
  constructor <;> grind

/-- A place is known once the next character of the query has come. -/
theorem consider_place (hp : p.Sound) (h : p.rest = q :: qs) :
    (p.consider before? s).place?.isSome ↔ p.place?.isSome ∨ sameLetter s.char q := by
  have hstreak := streakGain_nonneg hp before?
  have hplace := placeGain_nonneg before? s
  have hbest := hp.best_eq
  unfold Progress.consider
  cases hplace? : p.place? <;> grind

/-- What is due behind the place that the walk has come to. -/
def Progress.due (p : Progress) : Text := if p.place?.isSome then p.rest.tail else p.rest

theorem consider_due (hp : p.Sound) (h : p.rest = q :: qs) :
    (p.consider before? s).due = if p.place?.isSome ∨ sameLetter s.char q then qs else q :: qs := by
  simp only [Progress.due, consider_rest, consider_place hp h, h, List.tail_cons]

theorem settle_of_none (h : p.place? = none) : p.settle = p := by
  simp [Progress.settle, h]

theorem settle_place : p.settle.place? = p.place? := by
  unfold Progress.settle
  split <;> simp_all

theorem settle_rest : p.settle.rest = p.due := by
  unfold Progress.settle Progress.due
  split <;> simp_all

/-- What is found and what is still to be found make up the query. -/
theorem settle_length (h : p.rest ≠ []) :
    p.settle.found.length + p.settle.rest.length = p.found.length + p.rest.length := by
  obtain ⟨q, qs, hrest⟩ := List.exists_cons_of_ne_nil h
  unfold Progress.settle
  split
  · rfl
  · simp only [hrest, List.length_cons, List.tail_cons]
    omega

theorem settle_sound (hp : p.Sound) : p.settle.Sound := by
  have := hp.streak_nonneg
  have := hp.best_eq
  unfold Progress.settle
  constructor <;> grind

theorem advance_eq (next : Char) :
    p.advance before? s next =
      if next = '\x00' ∨ sameLetter (p.rest.tail.headD '\x00') next then
        (p.consider before? s).settle
      else p.consider before? s := by
  simp [Progress.advance]

theorem advance_sound (hp : p.Sound) (next : Char) : (p.advance before? s next).Sound := by
  rw [advance_eq]
  split
  · exact settle_sound (consider_sound hp)
  · exact consider_sound hp

theorem advance_length (h : p.rest ≠ []) (next : Char) :
    (p.advance before? s next).found.length + (p.advance before? s next).rest.length =
      p.found.length + p.rest.length := by
  rw [advance_eq]
  split
  · rw [settle_length (by rwa [consider_rest]), consider_found, consider_rest]
  · rw [consider_found, consider_rest]

/-- As long as a title goes on, some of the query is left. -/
theorem advance_rest_ne_nil (h : p.rest ≠ []) {next : Char} (hnext : next ≠ '\x00') :
    (p.advance before? s next).rest ≠ [] := by
  rw [advance_eq]
  split
  case isTrue hsettle =>
    have hwanted := hsettle.resolve_left hnext
    rw [settle_rest, Progress.due, consider_rest]
    split
    · intro hnil
      rw [hnil] at hwanted
      exact not_sameLetter_null hnext hwanted
    · exact h
  case isFalse => rwa [consider_rest]

/-- What is due stands in the rest of a title before a step exactly if it does so after it. -/
theorem advance_due (hp : p.Sound) (h : p.rest = q :: qs) {t : Spot} (ht : t.char ≠ '\x00')
    (after? : Option Spot) (title : Text) :
    StandsIn ((p.advance before? s t.char).consider after? t).due title ↔
      StandsIn (p.consider before? s).due (t.char :: title) := by
  have hsound : (p.consider before? s).Sound := consider_sound hp
  have hrest : (p.consider before? s).rest = q :: qs := by rw [consider_rest, h]
  rw [advance_eq, h, List.tail_cons]
  generalize p.consider before? s = p' at hsound hrest
  cases hplace : p'.place?.isSome with
  | false =>
      have hnone : p'.place? = none := by simpa using hplace
      have hdue : p'.due = q :: qs := by simp [Progress.due, hplace, hrest]
      rw [settle_of_none hnone, ite_self, consider_due hsound hrest, hdue, standsIn_cons]
      simp [hplace]
  | true =>
      have hdue : p'.due = qs := by simp [Progress.due, hplace, hrest]
      rw [hdue]
      cases qs with
      | nil => simp [ht, not_sameLetter_null ht, consider_due hsound hrest, hplace]
      | cons r rs =>
          have hsettled : p'.settle.rest = r :: rs := by rw [settle_rest, hdue]
          by_cases hnext : sameLetter t.char r
          · rw [List.headD_cons, if_pos (Or.inr (sameLetter_comm r _ ▸ hnext)),
              consider_due (settle_sound hsound) hsettled, standsIn_cons, settle_place]
            simp [hplace, hnext]
          · rw [List.headD_cons, if_neg (by simp [ht, sameLetter_comm r, hnext]),
              consider_due hsound hrest, standsIn_cons]
            simp [hplace, hnext]

/-- A walk finds all that is left of the query exactly if what is due stands in the title. -/
theorem walk_found (hp : p.Sound) (h : p.rest ≠ []) (before? : Option Spot) (place : Nat) (c : Char)
    {title : Text} (ht : '\x00' ∉ title) :
    (walk p before? place (c :: title)).found.length = p.found.length + p.rest.length ↔
      StandsIn (p.consider before? ⟨place, c⟩).due title := by
  induction title generalizing p before? place c with
  | nil =>
      have hlength := settle_length (p := p.consider before? ⟨place, c⟩) (by rwa [consider_rest])
      rw [consider_found, consider_rest] at hlength
      rw [walk, walk, List.headD_nil, advance_eq, if_pos (Or.inl rfl), standsIn_nil_right,
        ← settle_rest, ← List.length_eq_zero_iff]
      omega
  | cons d title ih =>
      obtain ⟨q, qs, hrest⟩ := List.exists_cons_of_ne_nil h
      rw [List.mem_cons, not_or] at ht
      rw [walk, List.headD_cons, ← advance_length h d, ih (advance_sound hp d)
        (advance_rest_ne_nil h (Ne.symm ht.1)) _ _ _ ht.2]
      exact advance_due hp hrest (t := ⟨_, d⟩) (Ne.symm ht.1) _ title

end Walk

/-- A title matches a query exactly if the query stands in it. -/
theorem isSome_score?_iff {query title : Text} (hq : query ≠ []) (ht : '\x00' ∉ title) :
    (score? query title).isSome ↔ StandsIn query title := by
  obtain ⟨q, qs, rfl⟩ := List.exists_cons_of_ne_nil hq
  have hstart : (Progress.mk (q :: qs) [] none (-1) 0 0).Sound := ⟨Int.le_refl 0, fun _ => rfl⟩
  rw [score?]
  cases title with
  | nil => simp [walk]
  | cons c title =>
      rw [List.mem_cons, not_or] at ht
      have hfound := walk_found hstart (List.cons_ne_nil q qs) none 0 c ht.2
      rw [consider_due hstart rfl] at hfound
      rw [standsIn_cons]
      simpa using hfound

section Ranking

variable {entries : List Entry} {query : Text}

/-- The score of an entry for the words of a query. -/
def scoreOf? (query : Text) (e : Entry) : Option Int := score? (Text.trim query) e.title

/-- A list of matches, each with its score. -/
def Scored (query : Text) (ms : List (Int × Entry)) : Prop :=
  ∀ m ∈ ms, scoreOf? query m.2 = some m.1

theorem matching_scored : Scored query (matching entries (Text.trim query)) := by
  intro m hm
  obtain ⟨e, -, he⟩ := List.mem_filterMap.1 hm
  obtain ⟨s, hs, rfl⟩ := Option.map_eq_some_iff.1 he
  exact hs

theorem map_matching : (matching entries (Text.trim query)).map Prod.snd =
    entries.filter fun e => (scoreOf? query e).isSome := by
  rw [matching, List.map_filterMap, ← List.filterMap_eq_filter]
  refine congrArg (List.filterMap · entries) (funext fun e => ?_)
  change ((scoreOf? query e).map _).map _ = _
  cases h : scoreOf? query e <;> simp [Option.guard, h]

/-- The matches with one score. -/
theorem Scored.filter_map {ms : List (Int × Entry)} (h : Scored query ms) (s : Int) :
    (ms.map Prod.snd).filter (scoreOf? query · = some s) =
      (Sorting.tied Prod.fst s ms).map Prod.snd := by
  rw [List.filter_map, Sorting.tied]
  congr 1
  refine List.filter_congr fun m hm => ?_
  simp [h m hm]

theorem sort_matching (entries : List Entry) (query : Text) :
    Sorting.Ranked Prod.fst (matching entries query)
      (Sorting.sort ranksBefore (matching entries query)) :=
  Sorting.sort_ranked (by simp [ranksBefore]) _

theorem filter_eq (h : Text.trim query ≠ []) :
    filter entries query =
      (Sorting.sort ranksBefore (matching entries (Text.trim query))).map Prod.snd := by
  rw [filter]
  split
  case h_1 hnil => exact absurd hnil h
  case h_2 => rfl

/-- For every query that is not blank, the result has each match once and nothing else; the scores
never increase; of matches with one score the later entries come first. But for titles with null
characters, the matches are the entries in whose titles the query stands. -/
theorem filter_ranked (entries : List Entry) (query : Text) (h : Text.trim query ≠ []) :
    (filter entries query).Perm (entries.filter fun e => (scoreOf? query e).isSome) ∧
      (filter entries query).Pairwise (fun a b => scoreOf? query b ≤ scoreOf? query a) ∧
      (∀ s, (filter entries query).filter (scoreOf? query · = some s) =
        (entries.filter (scoreOf? query · = some s)).reverse) ∧
      ∀ e, '\x00' ∉ e.title →
        (e ∈ filter entries query ↔ e ∈ entries ∧ StandsIn (Text.trim query) e.title) := by
  have hranked := sort_matching entries (Text.trim query)
  have hscored : Scored query (Sorting.sort ranksBefore (matching entries (Text.trim query))) :=
    fun m hm => matching_scored m (hranked.perm.mem_iff.1 hm)
  have hperm : (filter entries query).Perm (entries.filter fun e => (scoreOf? query e).isSome) := by
    rw [filter_eq h, ← map_matching]
    exact hranked.perm.map _
  refine ⟨hperm, ?_, fun s => ?_, fun e he => ?_⟩
  · rw [filter_eq h, List.pairwise_map]
    refine hranked.sorted.imp_of_mem fun ha hb hle => ?_
    rw [hscored _ ha, hscored _ hb]
    exact Option.some_le_some.2 hle
  · rw [filter_eq h, hscored.filter_map, hranked.tied_eq, List.map_reverse,
      ← matching_scored.filter_map, map_matching, List.filter_filter]
    congr 1
    refine List.filter_congr fun e _ => ?_
    grind
  · rw [hperm.mem_iff, List.mem_filter, scoreOf?, isSome_score?_iff h he]

theorem filter_ranked_mixed :
    Text.trim " over" ≠ [] ∧ '\x00' ∉ ("Over" : Text) ∧
      ∃ found, found = filter [⟨"Overview", "a", "h2"⟩, ⟨"Transfers", "b", "h2"⟩,
          ⟨"Over", "c", "h3"⟩, ⟨"Overview", "d", "h3"⟩] " over" ∧
        found.length = 3 ∧ ⟨"Over", "c", "h3"⟩ ∈ found ∧
        found.filter (scoreOf? " over" · = some 71) =
          [⟨"Overview", "d", "h3"⟩, ⟨"Overview", "a", "h2"⟩] := by
  have h : Text.trim " over" ≠ [] := by decide
  obtain ⟨hperm, -, hties, hmem⟩ := filter_ranked [⟨"Overview", "a", "h2"⟩,
    ⟨"Transfers", "b", "h2"⟩, ⟨"Over", "c", "h3"⟩, ⟨"Overview", "d", "h3"⟩] " over" h
  refine ⟨h, by decide, _, rfl, ?_, ?_, ?_⟩
  · rw [hperm.length_eq]
    decide +kernel
  · exact (hmem _ (by decide)).2 (by decide +kernel)
  · rw [hties]
    decide +kernel

/-- Two headings of one name come out in the opposite order. -/
theorem filter_turns_ties :
    filter [⟨"Overview", "a", "h2"⟩, ⟨"Overview", "b", "h2"⟩] "overview" =
      [⟨"Overview", "b", "h2"⟩, ⟨"Overview", "a", "h2"⟩] := by
  decide +kernel

end Ranking

end Marginalia.Search
