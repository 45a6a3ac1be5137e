import Marginalia.Proofs.CleanPath
import Marginalia.Settings.Load
import Mathlib.Data.List.Infix

/-!
# The nearest configuration file

The search goes from the working directory up by the text of its path alone and stops at a path
that is its own directory. A path from the root through the names of directories loses its last name
with each step, so the directories that are searched are the working directory and all those above
it, up to the root, and the search as a whole is one walk along their candidates. What stands at the
first candidate that is not missing settles it.
-/
namespace Marginalia

namespace Path

/-- What a directory can be called: a component that neither stays nor goes up. -/
structure Proper (name : Text) : Prop extends Component name where
  ne_here : name ≠ here
  ne_up : name ≠ up

section Proper
variable {ns : List Text} {name : Text}

/-- Proper names are left as they are. -/
theorem foldl_push_of_proper (h : ∀ n ∈ ns, Proper n) (rooted : Bool) (stack : List Text) :
    ns.foldl (push rooted) stack = ns.reverse ++ stack := by
  induction ns generalizing stack with
  | nil => rfl
  | cons n ns ih =>
      obtain ⟨hn, hns⟩ := List.forall_mem_cons.mp h
      rw [List.foldl_cons, push_name hn.nonempty hn.ne_here hn.ne_up, ih hns, List.reverse_cons,
        List.append_assoc]
      rfl

/-- A path from the root through proper names is clean as soon as its slashes are. -/
theorem clean_of_names {path : Text} (hrooted : isAbsolute path = true) (hnames : names path = ns)
    (h : ∀ n ∈ ns, Proper n) : clean path = ofNames true ns := by
  rw [clean_eq, hrooted, left, hrooted, hnames, foldl_push_of_proper h, List.append_nil,
    List.reverse_reverse]

/-- Joining a path from the root and a name adds the name. -/
theorem join_ofNames (h : ∀ n ∈ ns, Proper n) (hname : Proper name) :
    join [ofNames true ns, name] = ofNames true (ns ++ [name]) := by
  have hparts : [ofNames true ns, name].filter (· ≠ []) = [ofNames true ns, name] := by
    rw [List.filter_eq_self]
    simpa using ⟨List.cons_ne_nil _ _, hname.nonempty⟩
  have hjoin : Text.join "/" [ofNames true ns, name] = ofNames true ns ++ '/' :: name := by
    rw [Text.join_cons_cons, Text.join_singleton]
    rfl
  rw [join, hparts]
  change clean (Text.join "/" [ofNames true ns, name]) = _
  rw [hjoin]
  refine clean_of_names rfl ?_ ?_
  · rw [names_append, names_ofNames_rooted fun n hn => (h n hn).toComponent,
      hname.toComponent.names_eq]
  · intro n hn
    rcases List.mem_append.mp hn with hn | hn
    · exact h n hn
    · exact List.mem_singleton.mp hn ▸ hname

/-- What stands behind the last slash is not part of the directory. -/
theorem directory_append (front : Text) (h : '/' ∉ name) :
    directory (front ++ '/' :: name) = clean (front ++ ['/']) := by
  have hname : ∀ c ∈ name.reverse, decide (c ≠ '/') = true := by
    intro c hc
    exact decide_eq_true fun heq => h (heq ▸ List.mem_reverse.mp hc)
  rw [directory, List.reverse_append, List.reverse_cons, List.append_assoc,
    List.dropWhile_append_of_pos hname, List.singleton_append,
    List.dropWhile_cons_of_neg (by simp), List.reverse_cons, List.reverse_reverse]

/-- The directory of a path lacks the last name. -/
theorem directory_ofNames_concat (h : ∀ n ∈ ns, Proper n) (hname : Component name) :
    directory (ofNames true (ns ++ [name])) = ofNames true ns := by
  have hcomponents : ∀ n ∈ ns ++ [name], Component n := by
    intro n hn
    rcases List.mem_append.mp hn with hn | hn
    · exact (h n hn).toComponent
    · exact List.mem_singleton.mp hn ▸ hname
  have hnames := names_ofNames_rooted hcomponents
  have hrooted := isAbsolute_ofNames hcomponents true
  obtain ⟨front, heq, hfront⟩ := exists_ofNames_concat true ns name
  rw [heq] at hnames hrooted ⊢
  rcases hfront with rfl | hlast
  · have hhead : name.head? = some '/' := by simpa [isAbsolute] using hrooted
    exact absurd (List.mem_of_head? hhead) hname.slash_notMem
  · obtain ⟨front, rfl⟩ := List.getLast?_eq_some_iff.mp hlast
    rw [List.append_assoc, List.singleton_append] at hnames hrooted ⊢
    rw [names_append, hname.names_eq] at hnames
    rw [directory_append front hname.slash_notMem]
    refine clean_of_names ?_ ?_ h
    · cases front with
      | nil => rfl
      | cons c cs => exact hrooted
    · rw [names_append, List.append_cancel_right hnames]
      exact List.append_nil ns

end Proper

end Path

namespace Settings

open Workspace (pathOf)

variable {stat : Text → Except Trouble Node} {place : Location} {paths : List Text}

/-- The outcome of a search along paths. The first one that is not missing decides it: something
stands there, or it is in the way. -/
inductive Decides (stat : Text → Except Trouble Node) (paths : List Text) :
    Except LoadError (Option Text) → Prop
  | found {front back : List Text} {path : Text} {node : Node} :
      paths = front ++ path :: back → (∀ p ∈ front, stat p = .error .missing) →
      stat path = .ok node → Decides stat paths (.ok (some path))
  | barred {front back : List Text} {path : Text} {trouble : Trouble} :
      paths = front ++ path :: back → (∀ p ∈ front, stat p = .error .missing) →
      stat path = .error trouble → trouble ≠ .missing →
      Decides stat paths (.error (.unsearchable path trouble))
  | absent : (∀ p ∈ paths, stat p = .error .missing) → Decides stat paths (.ok none)

section Along

theorem firstStanding_of_missing {path : Text} (h : stat path = .error .missing) :
    firstStanding stat (path :: paths) = firstStanding stat paths := by
  rw [firstStanding, h]

theorem firstStanding_of_barred {path : Text} {trouble : Trouble} (h : stat path = .error trouble)
    (hne : trouble ≠ .missing) :
    firstStanding stat (path :: paths) = .error (.unsearchable path trouble) := by
  rw [firstStanding, h]
  cases trouble with
  | missing => exact absurd rfl hne
  | _ => rfl

/-- Missing paths at the front are passed over. -/
theorem firstStanding_append_of_missing {front : List Text}
    (h : ∀ p ∈ front, stat p = .error .missing) :
    firstStanding stat (front ++ paths) = firstStanding stat paths := by
  induction front with
  | nil => rfl
  | cons p front ih =>
      obtain ⟨hp, hfront⟩ := List.forall_mem_cons.mp h
      rw [List.cons_append, firstStanding_of_missing hp, ih hfront]

theorem Decides.firstStanding_eq {outcome : Except LoadError (Option Text)}
    (h : Decides stat paths outcome) : firstStanding stat paths = outcome := by
  cases h with
  | found hpaths hfront hstat =>
      rw [hpaths, firstStanding_append_of_missing hfront, firstStanding, hstat]
  | barred hpaths hfront hstat hne =>
      rw [hpaths, firstStanding_append_of_missing hfront, firstStanding_of_barred hstat hne]
  | absent hall =>
      rw [← List.append_nil paths, firstStanding_append_of_missing hall]
      rfl

/-- Every search along paths comes to something. -/
theorem exists_decides (stat : Text → Except Trouble Node) (paths : List Text) :
    ∃ outcome, Decides stat paths outcome := by
  have hnil : ∀ p ∈ ([] : List Text), stat p = .error .missing :=
    fun _ h => absurd h List.not_mem_nil
  induction paths with
  | nil => exact ⟨_, .absent hnil⟩
  | cons path paths ih =>
      cases hstat : stat path with
      | ok node => exact ⟨_, .found (List.nil_append _).symm hnil hstat⟩
      | error trouble =>
          by_cases hmissing : trouble = .missing
          · subst hmissing
            have hfront : ∀ {front : List Text}, (∀ p ∈ front, stat p = .error .missing) →
                ∀ p ∈ path :: front, stat p = .error .missing :=
              fun h => List.forall_mem_cons.mpr ⟨hstat, h⟩
            obtain ⟨outcome, hdecides⟩ := ih
            cases hdecides with
            | found hpaths hmiss hfound =>
                exact ⟨_, .found (congrArg (path :: ·) hpaths) (hfront hmiss) hfound⟩
            | barred hpaths hmiss hbarred hne =>
                exact ⟨_, .barred (congrArg (path :: ·) hpaths) (hfront hmiss) hbarred hne⟩
            | absent hall => exact ⟨_, .absent (hfront hall)⟩
          · exact ⟨_, .barred (List.nil_append _).symm hnil hstat hmissing⟩

theorem firstStanding_eq_iff {outcome : Except LoadError (Option Text)} :
    firstStanding stat paths = outcome ↔ Decides stat paths outcome := by
  refine ⟨fun h => ?_, Decides.firstStanding_eq⟩
  obtain ⟨outcome', hdecides⟩ := exists_decides stat paths
  rwa [← h, hdecides.firstStanding_eq]

end Along

section Upwards

theorem candidatesFrom_concat (place : Location) (name : Text) :
    candidatesFrom (place ++ [name]) =
      candidatesIn (pathOf (place ++ [name])) ++ candidatesFrom place := by
  rw [candidatesFrom, List.length_append, List.length_singleton, List.range_succ_eq_map,
    List.flatMap_cons, Nat.sub_zero, List.take_of_length_le (by simp), List.flatMap_map]
  congr 1
  rw [candidatesFrom]
  apply List.flatMap_congr
  intro k hk
  rw [Nat.succ_eq_add_one, Nat.add_sub_add_right, List.take_append_of_le_length (Nat.sub_le _ _)]

/-- A search goes on where the search in front of it has found nothing. -/
theorem firstStanding_append (front back : List Text) :
    firstStanding stat (front ++ back) =
      match firstStanding stat front with
      | .ok none => firstStanding stat back
      | outcome => outcome := by
  induction front with
  | nil => rfl
  | cons path front ih =>
      rw [List.cons_append]
      cases hstat : stat path with
      | ok node =>
          rw [firstStanding, firstStanding, hstat]
      | error trouble =>
          by_cases hmissing : trouble = .missing
          · subst hmissing
            rw [firstStanding_of_missing hstat, firstStanding_of_missing hstat, ih]
          · rw [firstStanding_of_barred hstat hmissing, firstStanding_of_barred hstat hmissing]

/-- Going up from a directory is one search along the candidates of all directories on the way. -/
theorem findFrom_eq_firstStanding (h : ∀ n ∈ place, Path.Proper n) :
    findFrom stat (pathOf place) = firstStanding stat (candidatesFrom place) := by
  induction place using List.reverseRecOn with
  | nil =>
      have hroot : Path.directory (pathOf []) = pathOf [] := by decide
      have hcandidates : candidatesFrom [] = candidatesIn (pathOf []) := by decide
      rw [findFrom, if_pos hroot, hcandidates]
      cases firstStanding stat (candidatesIn (pathOf [])) with
      | error e => rfl
      | ok found => cases found <;> rfl
  | append_singleton place name ih =>
      have hplace : ∀ n ∈ place, Path.Proper n := fun n hn => h n (List.mem_append_left _ hn)
      have hname : Path.Proper name :=
        h name (List.mem_append_right _ (List.mem_singleton_self name))
      have hup : Path.directory (pathOf (place ++ [name])) = pathOf place :=
        Path.directory_ofNames_concat hplace hname.toComponent
      have hne : pathOf place ≠ pathOf (place ++ [name]) := by
        intro heq
        have hnames := congrArg Path.names heq
        rw [pathOf, Path.names_ofNames_rooted fun n hn => (hplace n hn).toComponent, pathOf,
          Path.names_ofNames_rooted fun n hn => (h n hn).toComponent] at hnames
        simpa using congrArg List.length hnames
      rw [findFrom, hup, if_neg hne, ih hplace, candidatesFrom_concat, firstStanding_append]
      cases firstStanding stat (candidatesIn (pathOf (place ++ [name]))) with
      | error e => rfl
      | ok found => cases found <;> rfl

/-- The candidates are the files of either name in the directories from the nearest one up. -/
theorem candidatesFrom_eq (h : ∀ n ∈ place, Path.Proper n) :
    candidatesFrom place =
      place.inits.reverse.flatMap fun dir => fileNames.map fun name => pathOf (dir ++ [name]) := by
  have hnames : ∀ name ∈ fileNames, Path.Proper name := by
    intro name hname
    have hcases : name = "solcco.toml" ∨ name = ".solcco.toml" := by simpa [fileNames] using hname
    rcases hcases with rfl | rfl
    · exact ⟨⟨by decide, by decide⟩, by decide, by decide⟩
    · exact ⟨⟨by decide, by decide⟩, by decide, by decide⟩
  have hin : ∀ {dir : Location}, (∀ n ∈ dir, Path.Proper n) →
      candidatesIn (pathOf dir) = fileNames.map fun name => pathOf (dir ++ [name]) :=
    fun hdir => List.map_congr_left fun name hname => Path.join_ofNames hdir (hnames name hname)
  induction place using List.reverseRecOn with
  | nil => decide
  | append_singleton place name ih =>
      have hplace : ∀ n ∈ place, Path.Proper n := fun n hn => h n (List.mem_append_left _ hn)
      rw [candidatesFrom_concat, hin h, ih hplace, List.inits_append]
      simp

end Upwards

/-- The search from a working directory, whatever the file system says of each path. The candidates
are the two names in the working directory and then in each directory above it, up to the root. The
first of them that is not missing decides: if something stands there it is found, and if it cannot
be looked at the search fails there and says so, whatever stands further up. If all are missing
nothing is found. -/
theorem find_nearest (place : Location) (h : ∀ n ∈ place, Path.Proper n) :
    let paths := place.inits.reverse.flatMap fun dir =>
      [pathOf (dir ++ [("solcco.toml" : Text)]), pathOf (dir ++ [(".solcco.toml" : Text)])]
    (∀ stat outcome, findFrom stat (pathOf place) = outcome ↔ Decides stat paths outcome) ∧
      (∀ w : Workspace, w.here = place →
        find w = findFrom w.stat (pathOf place) ∧ candidates w = paths) ∧
      ∀ path trouble, ∃ cause, (diagnose (LoadError.unsearchable path trouble)).message =
        "checking for config file at " ++ Quoted.quote path ++ ": " ++ cause := by
  intro paths
  have hpaths : candidatesFrom place = paths := candidatesFrom_eq h
  refine ⟨fun stat outcome => ?_, ?_, fun path trouble => ⟨_, rfl⟩⟩
  · rw [findFrom_eq_firstStanding h, hpaths, firstStanding_eq_iff]
  · rintro w rfl
    exact ⟨rfl, hpaths⟩

/-- A link that leads nowhere hides the file further up. -/
theorem find_nearest_barred :
    let nodes : List (Location × Node) :=
      [(["p"], .directory), (["p", "..q"], .directory), (["p", ".solcco.toml"], .loop),
        (["solcco.toml"], .file [])]
    let w : Workspace := { nodes, here := ["p", "..q"] }
    (∀ n ∈ w.here, Path.Proper n) ∧
      find w = .error (.unsearchable "/p/.solcco.toml" .looping) := by
  intro nodes w
  have hproper : ∀ n ∈ w.here, Path.Proper n := by
    intro n hn
    have hcases : n = "p" ∨ n = "..q" := by simpa [w] using hn
    rcases hcases with rfl | rfl
    · exact ⟨⟨by decide, by decide⟩, by decide, by decide⟩
    · exact ⟨⟨by decide, by decide⟩, by decide, by decide⟩
  refine ⟨hproper, ((find_nearest w.here hproper).1 w.stat _).mpr ?_⟩
  have hfront : ∀ p ∈ [("/p/..q/solcco.toml" : Text), "/p/..q/.solcco.toml", "/p/solcco.toml"],
      w.stat p = .error .missing := by decide +kernel
  exact .barred rfl hfront (by decide +kernel) nofun

end Settings

end Marginalia
