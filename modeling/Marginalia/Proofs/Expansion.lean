import Marginalia.Proofs.Outcome
import Marginalia.Proofs.Text
import Marginalia.Proofs.TextOrder
import Marginalia.Reference

/-!
# What arguments stand for

Each argument by itself either stands for references or fails, in one of the ways that its kind allows.
Arguments together stand for all their references in order, of which those are dropped that have an
earlier one's location; if some argument fails, the first of these decides. The terrain is arbitrary:
what paths lead to, what patterns find and for what they stand is not looked into.
-/
namespace Marginalia.Reference

/-- An address begins with one of two schemes. -/
def IsUrl (arg : Text) : Prop := ("http://" : Text) <+: arg ∨ ("https://" : Text) <+: arg

/-- A pattern has a character with a meaning. -/
def IsPattern (arg : Text) : Prop := ∃ c ∈ arg, c ∈ ['*', '?', '[', '\x7b']

/-- One of the patterns to leave out stands for a location. -/
def Excludes (t : Terrain) (exclude : List Text) (location : Text) : Prop :=
  ∃ pattern ∈ exclude, t.stands pattern location = true

instance {t : Terrain} {exclude : List Text} {location : Text} :
    Decidable (Excludes t exclude location) :=
  inferInstanceAs (Decidable (∃ pattern ∈ exclude, t.stands pattern location = true))

/-- What an argument stands for: an address for itself, a pattern for the clean paths of what it finds
in order, and a path for its clean form. A file is labelled with the last component of its path. -/
inductive Expands (t : Terrain) (exclude : List Text) (arg : Text) : List Reference → Prop
  | url (hurl : IsUrl arg) :
      Expands t exclude arg [{ origin := .url, location := arg, label := Url.fileName arg }]
  | pattern {found kept : List Text} (hurl : ¬IsUrl arg) (hpattern : IsPattern arg)
      (hvalid : t.isValid arg = true) (hfound : t.files arg = .ok found)
      (hkept : kept.Perm (found.filter fun path => ¬Excludes t exclude (Path.clean path)))
      (hsorted : kept.Pairwise (· ≤ ·)) (hne : kept ≠ []) :
      Expands t exclude arg (kept.map fun path =>
        { origin := .file, location := Path.clean path, label := Path.base (Path.clean path) })
  | path {n : Node} (hurl : ¬IsUrl arg) (hpattern : ¬IsPattern arg) (hstat : t.stat arg = .ok n)
      (hfile : n ≠ .directory) :
      Expands t exclude arg
        [{ origin := .file, location := Path.clean arg, label := Path.base (Path.clean arg) }]

/-- Why an argument stands for nothing. -/
inductive Fails (t : Terrain) (exclude : List Text) (arg : Text) : ResolveError → Prop
  | malformed (hurl : ¬IsUrl arg) (hpattern : IsPattern arg) (hvalid : t.isValid arg = false) :
      Fails t exclude arg (.malformed arg)
  | unexpandable {e : Glob.Malformed} (hurl : ¬IsUrl arg) (hpattern : IsPattern arg)
      (hvalid : t.isValid arg = true) (hfound : t.files arg = .error e) :
      Fails t exclude arg (.unexpandable arg)
  | unmatched {found : List Text} (hurl : ¬IsUrl arg) (hpattern : IsPattern arg)
      (hvalid : t.isValid arg = true) (hfound : t.files arg = .ok found)
      (hnone : ∀ path ∈ found, Excludes t exclude (Path.clean path)) :
      Fails t exclude arg (.unmatched arg)
  | directory (hurl : ¬IsUrl arg) (hpattern : ¬IsPattern arg)
      (hstat : t.stat arg = .ok .directory) : Fails t exclude arg (.directory arg)
  | missing (hurl : ¬IsUrl arg) (hpattern : ¬IsPattern arg)
      (hstat : t.stat arg = .error .missing) : Fails t exclude arg (.missing arg)
  | unreachable {trouble : Trouble} (hurl : ¬IsUrl arg) (hpattern : ¬IsPattern arg)
      (hstat : t.stat arg = .error trouble) (hne : trouble ≠ .missing) :
      Fails t exclude arg (.unreachable arg trouble)

section Argument
variable {t : Terrain} {exclude : List Text} {arg : Text} {refs : List Reference} {e : ResolveError}

theorem isUrl_iff : isUrl arg = true ↔ IsUrl arg := by
  rw [isUrl, Bool.or_eq_true, Text.opens_iff, Text.opens_iff]
  simp only [IsUrl, List.IsPrefix, eq_comm]

theorem isPattern_iff : Glob.isPattern arg = true ↔ IsPattern arg := by
  have hmeta : ("*?[\x7b" : Text) = ['*', '?', '[', '\x7b'] := rfl
  rw [Glob.isPattern, List.any_eq_true]
  simp only [Glob.isMeta, hmeta, List.contains_iff_mem, IsPattern]

theorem isExcluded_iff {path : Text} :
    isExcluded t exclude path = true ↔ Excludes t exclude (Path.clean path) := List.any_eq_true

theorem filter_isExcluded (found : List Text) :
    (found.filter fun path => !isExcluded t exclude path) =
      found.filter fun path => ¬Excludes t exclude (Path.clean path) := by
  apply List.filter_congr
  intro path _
  rw [Bool.eq_iff_iff, Bool.not_eq_true', decide_eq_true_iff, ← isExcluded_iff, Bool.not_eq_true]

/-- A list of what a pattern finds is known by its members and its order. -/
theorem expandPattern_eq_ok {found kept : List Text} (hvalid : t.isValid arg = true)
    (hfound : t.files arg = .ok found)
    (hkept : kept.Perm (found.filter fun path => ¬Excludes t exclude (Path.clean path)))
    (hsorted : kept.Pairwise (· ≤ ·)) (hne : kept ≠ []) :
    expandPattern t exclude arg = .ok kept := by
  unfold expandPattern
  simp only [hvalid, hfound, filter_isExcluded, Bool.not_true, Bool.false_eq_true, if_false]
  split
  · next hnil =>
    rw [hnil] at hkept
    exact absurd hkept.eq_nil hne
  · rw [Text.eq_mergeSort hsorted hkept]

theorem expandPattern_eq_error {found : List Text} (hvalid : t.isValid arg = true)
    (hfound : t.files arg = .ok found)
    (hnone : ∀ path ∈ found, Excludes t exclude (Path.clean path)) :
    expandPattern t exclude arg = .error (.unmatched arg) := by
  have hnil : (found.filter fun path => ¬Excludes t exclude (Path.clean path)) = [] := by
    rw [List.filter_eq_nil_iff]
    intro path hpath
    simpa using hnone path hpath
  unfold expandPattern
  simp only [hvalid, hfound, filter_isExcluded, Bool.not_true, Bool.false_eq_true, if_false, hnil]

theorem expand_of_pattern (hurl : ¬IsUrl arg) (hpattern : IsPattern arg) :
    expand t exclude arg = (expandPattern t exclude arg).map (·.map ofPath) := by
  rw [expand, if_neg (isUrl_iff.not.mpr hurl), if_pos (isPattern_iff.mpr hpattern)]

theorem expand_of_path (hurl : ¬IsUrl arg) (hpattern : ¬IsPattern arg) :
    expand t exclude arg = (checkFile t arg).map fun _ => [ofPath arg] := by
  rw [expand, if_neg (isUrl_iff.not.mpr hurl), if_neg (isPattern_iff.not.mpr hpattern)]

theorem Expands.expand_eq (h : Expands t exclude arg refs) : expand t exclude arg = .ok refs := by
  cases h with
  | url hurl =>
      rw [expand, if_pos (isUrl_iff.mpr hurl)]
      rfl
  | pattern hurl hpattern hvalid hfound hkept hsorted hne =>
      rw [expand_of_pattern hurl hpattern, expandPattern_eq_ok hvalid hfound hkept hsorted hne]
      rfl
  | @path n hurl hpattern hstat hfile =>
      rw [expand_of_path hurl hpattern, checkFile, hstat]
      cases n with
      | file content => rfl
      | directory => exact absurd rfl hfile
      | loop => rfl

theorem Fails.expand_eq (h : Fails t exclude arg e) : expand t exclude arg = .error e := by
  cases h with
  | malformed hurl hpattern hvalid =>
      rw [expand_of_pattern hurl hpattern, expandPattern, hvalid]
      rfl
  | unexpandable hurl hpattern hvalid hfound =>
      rw [expand_of_pattern hurl hpattern, expandPattern, hvalid, hfound]
      rfl
  | unmatched hurl hpattern hvalid hfound hnone =>
      rw [expand_of_pattern hurl hpattern, expandPattern_eq_error hvalid hfound hnone]
      rfl
  | directory hurl hpattern hstat =>
      rw [expand_of_path hurl hpattern, checkFile, hstat]
      rfl
  | missing hurl hpattern hstat =>
      rw [expand_of_path hurl hpattern, checkFile, hstat]
      rfl
  | @unreachable trouble hurl hpattern hstat hne =>
      rw [expand_of_path hurl hpattern, checkFile, hstat]
      cases trouble with
      | missing => exact absurd rfl hne
      | _ => rfl

/-- Every argument stands for references or fails. -/
theorem exists_expands_or_fails (t : Terrain) (exclude : List Text) (arg : Text) :
    (∃ refs, Expands t exclude arg refs) ∨ ∃ e, Fails t exclude arg e := by
  by_cases hurl : IsUrl arg
  · exact .inl ⟨_, .url hurl⟩
  · by_cases hpattern : IsPattern arg
    · cases hvalid : t.isValid arg with
      | false => exact .inr ⟨_, .malformed hurl hpattern hvalid⟩
      | true =>
          cases hfound : t.files arg with
          | error m => exact .inr ⟨_, .unexpandable hurl hpattern hvalid hfound⟩
          | ok found =>
              by_cases hnone : ∀ path ∈ found, Excludes t exclude (Path.clean path)
              · exact .inr ⟨_, .unmatched hurl hpattern hvalid hfound hnone⟩
              · push Not at hnone
                obtain ⟨path, hpath, hkeep⟩ := hnone
                have hperm := List.mergeSort_perm
                  (found.filter fun path => ¬Excludes t exclude (Path.clean path)) Text.atMost
                have hmem := hperm.mem_iff.mpr (List.mem_filter.mpr ⟨hpath, by simpa using hkeep⟩)
                exact .inl ⟨_, .pattern hurl hpattern hvalid hfound hperm Text.pairwise_mergeSort
                  (List.ne_nil_of_mem hmem)⟩
    · cases hstat : t.stat arg with
      | error trouble =>
          by_cases hmissing : trouble = .missing
          · exact .inr ⟨_, .missing hurl hpattern (hmissing ▸ hstat)⟩
          · exact .inr ⟨_, .unreachable hurl hpattern hstat hmissing⟩
      | ok n =>
          by_cases hfile : n = .directory
          · exact .inr ⟨_, .directory hurl hpattern (hfile ▸ hstat)⟩
          · exact .inl ⟨_, .path hurl hpattern hstat hfile⟩

/-- An argument stands for what the expansion gives. -/
theorem expand_eq_ok_iff : expand t exclude arg = .ok refs ↔ Expands t exclude arg refs := by
  refine ⟨fun h => ?_, Expands.expand_eq⟩
  rcases exists_expands_or_fails t exclude arg with ⟨refs', hexpands⟩ | ⟨e, hfails⟩
  · cases h.symm.trans hexpands.expand_eq
    exact hexpands
  · cases h.symm.trans hfails.expand_eq

/-- An argument fails where the expansion does. -/
theorem expand_eq_error_iff : expand t exclude arg = .error e ↔ Fails t exclude arg e := by
  refine ⟨fun h => ?_, Fails.expand_eq⟩
  rcases exists_expands_or_fails t exclude arg with ⟨refs, hexpands⟩ | ⟨e', hfails⟩
  · cases h.symm.trans hexpands.expand_eq
  · cases h.symm.trans hfails.expand_eq
    exact hfails

end Argument

/-- The references of a list in whose front none has the same location. -/
def firsts (refs : List Reference) : List Reference :=
  (List.range refs.length).filterMap fun i =>
    refs[i]?.filter fun r => (refs.take i).all (·.location ≠ r.location)

section Firsts
variable {r : Reference} {refs : List Reference}

theorem firsts_cons (r : Reference) (refs : List Reference) :
    firsts (r :: refs) = r :: (firsts refs).filter (·.location ≠ r.location) := by
  rw [firsts, List.length_cons, List.range_succ_eq_map, List.filterMap_cons, List.filterMap_map,
    firsts, List.filter_filterMap]
  change r :: _ = _
  congr 1
  apply List.filterMap_congr
  intro i _
  rw [Function.comp_apply, List.getElem?_cons_succ, List.take_succ_cons, Option.filter_filter]
  congr 1
  funext s
  rw [List.all_cons]
  simp [Bool.and_comm, eq_comm]

theorem distinct_cons (r : Reference) (refs : List Reference) :
    distinct (r :: refs) = r :: distinct (refs.filter (·.location ≠ r.location)) := by
  rw [distinct, List.eraseDupsBy_cons, distinct]
  congr 3
  funext s
  simp

/-- Leaving out what has been seen before or after dropping repetitions is the same. -/
theorem distinct_filter (seen : List Text) (refs : List Reference) :
    distinct (refs.filter (·.location ∉ seen)) = (firsts refs).filter (·.location ∉ seen) := by
  induction refs generalizing seen with
  | nil => rfl
  | cons r refs ih =>
      rw [firsts_cons, List.filter_cons, List.filter_cons]
      by_cases hseen : r.location ∈ seen
      · have hnot : ¬decide (r.location ∉ seen) = true := by simpa using hseen
        rw [if_neg hnot, if_neg hnot, ih, List.filter_filter]
        apply List.filter_congr
        intro s _
        have hne : s.location ∉ seen → s.location ≠ r.location := fun hs heq => hs (heq ▸ hseen)
        by_cases hs : s.location ∈ seen
        · simp [hs]
        · simp [hs, hne hs]
      · have hnot : decide (r.location ∉ seen) = true := by simpa using hseen
        have hmore : ∀ refs : List Reference, (refs.filter (·.location ∉ r.location :: seen)) =
            refs.filter fun s => decide (s.location ≠ r.location) && decide (s.location ∉ seen) := by
          intro refs
          apply List.filter_congr
          intro s _
          simp
        rw [if_pos hnot, if_pos hnot, distinct_cons, List.filter_filter, List.filter_filter, ← hmore,
          ih, hmore]
        simp only [Bool.and_comm]

theorem distinct_eq_firsts (refs : List Reference) : distinct refs = firsts refs := by
  have h := distinct_filter [] refs
  simpa using h

theorem mem_of_mem_firsts (h : r ∈ firsts refs) : r ∈ refs := by
  obtain ⟨i, -, hi⟩ := List.mem_filterMap.mp h
  exact List.mem_of_getElem? (Option.filter_eq_some_iff.mp hi).1

theorem nodup_firsts (refs : List Reference) : ((firsts refs).map Reference.location).Nodup := by
  induction refs with
  | nil => exact List.nodup_nil
  | cons r refs ih =>
      rw [firsts_cons, List.map_cons, List.nodup_cons]
      constructor
      · intro hmem
        obtain ⟨s, hs, heq⟩ := List.mem_map.mp hmem
        have hne := (List.mem_filter.mp hs).2
        simp [heq] at hne
      · exact ih.sublist (List.filter_sublist.map _)

/-- Every location of a list stays. -/
theorem exists_mem_firsts (h : r ∈ refs) : ∃ s ∈ firsts refs, s.location = r.location := by
  induction refs with
  | nil => cases h
  | cons s refs ih =>
      rw [firsts_cons]
      by_cases heq : s.location = r.location
      · exact ⟨s, List.mem_cons_self, heq⟩
      · have hmem := (List.mem_cons.mp h).resolve_left fun hr => heq (hr ▸ rfl)
        obtain ⟨u, hu, hlocation⟩ := ih hmem
        have hne : u.location ≠ s.location := hlocation ▸ Ne.symm heq
        exact ⟨u, List.mem_cons_of_mem _ (List.mem_filter.mpr ⟨hu, by simpa using hne⟩), hlocation⟩

end Firsts

theorem mapM_expand_eq_ok_iff {t : Terrain} {exclude args : List Text}
    {parts : List (List Reference)} : args.mapM (expand t exclude) = .ok parts ↔
      List.Forall₂ (Expands t exclude) args parts := by
  rw [mapM_eq_ok_iff]
  simp only [expand_eq_ok_iff]

theorem resolveIn_eq_ok_iff {t : Terrain} {exclude args : List Text} {refs : List Reference} :
    resolveIn t exclude args = .ok refs ↔
      ∃ parts, List.Forall₂ (Expands t exclude) args parts ∧ refs = firsts parts.flatten := by
  constructor
  · intro h
    obtain ⟨parts, hparts, h⟩ := bind_eq_ok h
    cases h
    exact ⟨parts, mapM_expand_eq_ok_iff.mp hparts, distinct_eq_firsts _⟩
  · rintro ⟨parts, hparts, rfl⟩
    rw [resolveIn, mapM_expand_eq_ok_iff.mpr hparts, ← distinct_eq_firsts]
    rfl

theorem resolveIn_eq_error_iff {t : Terrain} {exclude args : List Text} {e : ResolveError} :
    resolveIn t exclude args = .error e ↔ ∃ front arg back, args = front ++ arg :: back ∧
      (∀ a ∈ front, ∃ part, Expands t exclude a part) ∧ Fails t exclude arg e := by
  have hmapM : args.mapM (expand t exclude) = .error e ↔ _ := mapM_eq_error_iff
  simp only [expand_eq_ok_iff, expand_eq_error_iff] at hmapM
  rw [← hmapM, resolveIn]
  cases args.mapM (expand t exclude) with
  | error e' =>
      constructor
      · intro h
        cases h
        rfl
      · intro h
        cases h
        rfl
  | ok parts => exact ⟨nofun, nofun⟩

section Argument
variable {t : Terrain} {exclude args : List Text} {arg : Text} {refs : List Reference} {r : Reference}

theorem Expands.ne_nil (h : Expands t exclude arg refs) : refs ≠ [] := by
  cases h with
  | url => exact List.cons_ne_nil _ _
  | pattern _ _ _ _ _ _ hne => exact List.map_eq_nil_iff.not.mpr hne
  | path => exact List.cons_ne_nil _ _

/-- An argument names a reference by itself if it is its address or a path to its file. -/
def Names (arg : Text) (r : Reference) : Prop :=
  IsUrl arg ∧ r.origin = .url ∧ r.location = arg ∨
    ¬IsUrl arg ∧ ¬IsPattern arg ∧ r.origin = .file ∧ r.location = Path.clean arg

/-- What is to be left out is there only where it was asked for by itself. -/
theorem Expands.names_of_excludes (h : Expands t exclude arg refs) (hr : r ∈ refs)
    (hexcludes : Excludes t exclude r.location) : Names arg r := by
  cases h with
  | url hurl =>
      rw [List.mem_singleton.mp hr]
      exact .inl ⟨hurl, rfl, rfl⟩
  | pattern _ _ _ _ hkept =>
      obtain ⟨path, hpath, rfl⟩ := List.mem_map.mp hr
      have hkeep := (List.mem_filter.mp (hkept.mem_iff.mp hpath)).2
      exact absurd hexcludes (of_decide_eq_true hkeep)
  | path hurl hpattern =>
      rw [List.mem_singleton.mp hr]
      exact .inr ⟨hurl, hpattern, rfl, rfl⟩

end Argument

/-- Arguments stand for the references of each of them in order, without those that have an earlier
one's location, or fail as the first of them that fails. So no location is there twice, one that is to
be left out is there only if it was named by itself, and something is there if something was asked
for. -/
theorem resolve_expansion (t : Terrain) (exclude args : List Text) :
    (∀ refs, resolveIn t exclude args = .ok refs ↔
      ∃ parts, List.Forall₂ (Expands t exclude) args parts ∧ refs = firsts parts.flatten) ∧
    (∀ e, resolveIn t exclude args = .error e ↔ ∃ front arg back, args = front ++ arg :: back ∧
      (∀ a ∈ front, ∃ part, Expands t exclude a part) ∧ Fails t exclude arg e) ∧
    ∀ refs, resolveIn t exclude args = .ok refs →
      (refs.map Reference.location).Nodup ∧
      (∀ r ∈ refs, Excludes t exclude r.location → ∃ arg ∈ args, Names arg r) ∧
      (args ≠ [] → refs ≠ []) := by
  refine ⟨fun _ => resolveIn_eq_ok_iff, fun _ => resolveIn_eq_error_iff, fun refs h => ?_⟩
  obtain ⟨parts, hparts, rfl⟩ := resolveIn_eq_ok_iff.mp h
  refine ⟨nodup_firsts _, ?_, ?_⟩
  · intro r hr hexcludes
    obtain ⟨part, hpart, hr⟩ := List.mem_flatten.mp (mem_of_mem_firsts hr)
    obtain ⟨arg, harg, hexpands⟩ := exists_mem_of_forall₂ hparts.flip hpart
    exact ⟨arg, harg, hexpands.names_of_excludes hr hexcludes⟩
  · intro hargs
    cases hparts with
    | nil => exact absurd rfl hargs
    | cons hexpands _ =>
        obtain ⟨r, hr⟩ := List.exists_mem_of_ne_nil _ hexpands.ne_nil
        obtain ⟨s, hs, -⟩ := exists_mem_firsts (List.mem_flatten_of_mem List.mem_cons_self hr)
        exact List.ne_nil_of_mem hs

theorem resolve_expansion_overlapping :
    let t : Terrain :=
      { stat := fun path => if path = "./a.sol" then .ok (.file []) else .error .missing
        isValid := fun pattern => pattern ≠ "["
        files := fun _ => .ok ["lib//b.sol", "a.sol", "lib/x.sol"]
        stands := fun pattern location => pattern = "lib/x*" && location = "lib/x.sol" }
    let args : List Text := ["http://h/p/*.sol", "./a.sol", "**/*.sol"]
    let refs : List Reference :=
      [{ origin := .url, location := "http://h/p/*.sol", label := "*.sol" },
        { origin := .file, location := "a.sol", label := "a.sol" },
        { origin := .file, location := "lib/b.sol", label := "b.sol" }]
    let failing : List Text := ["a.sol", "["]
    resolveIn t ["lib/x*"] args = .ok refs ∧ (refs.map Reference.location).Nodup ∧
      resolveIn t ["lib/x*"] (args ++ failing) = .error (.missing "a.sol") := by
  intro t args refs failing
  obtain ⟨hok, herror, hrefs⟩ := resolve_expansion t ["lib/x*"] args
  have hurl (arg : Text) (h : isUrl arg = false) : ¬IsUrl arg := by simp [← isUrl_iff, h]
  have haddress : Expands t ["lib/x*"] "http://h/p/*.sol"
      [{ refs[0] with label := Url.fileName "http://h/p/*.sol" }] :=
    .url (isUrl_iff.mp (by decide))
  have hlabel : Url.fileName "http://h/p/*.sol" = "*.sol" := by decide +kernel
  rw [hlabel] at haddress
  have hkept : (["a.sol", "lib//b.sol"] : List Text).Perm
      ((["lib//b.sol", "a.sol", "lib/x.sol"] : List Text).filter fun path =>
        ¬Excludes t ["lib/x*"] (Path.clean path)) := by decide +kernel
  have hexpands : List.Forall₂ (Expands t ["lib/x*"]) args
      [[refs[0]], [refs[1]], [refs[1], refs[2]]] := by
    refine .cons haddress (.cons ?_ (.cons ?_ .nil))
    · exact .path (n := .file []) (hurl _ (by decide)) (isPattern_iff.not.mp (by decide)) rfl nofun
    · exact .pattern (hurl _ (by decide)) (isPattern_iff.mp (by decide)) (by decide) rfl hkept
        (by decide) nofun
  have hresolved := (hok refs).mpr ⟨_, hexpands, by decide +kernel⟩
  refine ⟨hresolved, (hrefs refs hresolved).1, ?_⟩
  refine ((resolve_expansion t ["lib/x*"] (args ++ failing)).2.1 _).mpr
    ⟨args, "a.sol", ["["], rfl, ?_, ?_⟩
  · intro arg harg
    exact exists_mem_of_forall₂ hexpands harg |>.imp fun _ h => h.2
  · exact .missing (hurl _ (by decide)) (isPattern_iff.not.mp (by decide)) rfl

end Marginalia.Reference
