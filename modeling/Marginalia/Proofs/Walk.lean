import Marginalia.Proofs.CleanPath
import Marginalia.Proofs.Lookup
import Marginalia.Proofs.Outcome
import Marginalia.Workspace.Write

/-!
# Walks through a workspace

A walk looks into every place it leaves, so all places on the way to a directory are directories,
and whatever keeps these keeps the walk. Since no link leads aside, a double dot takes back the step
in front of it, and a clean path leads to where the path itself leads.
-/
namespace Marginalia.Workspace

section Nodes
variable {w : Workspace} {p q : Location} {n : Node}

theorem node?_put (hp : p ≠ []) : (w.put p n).node? q = if q = p then some n else w.node? q := by
  by_cases hq : q = []
  · rw [hq, if_neg (Ne.symm hp)]
    rfl
  · have hempty : q.isEmpty = false := by simpa using hq
    rw [node?, node?, hempty, if_neg Bool.false_ne_true, if_neg Bool.false_ne_true, put,
      lookup_overwrite]

theorem node?_erase (hp : p ≠ []) : (w.erase p).node? q = if q = p then none else w.node? q := by
  by_cases hq : q = []
  · rw [hq, if_neg (Ne.symm hp)]
    rfl
  · have hempty : q.isEmpty = false := by simpa using hq
    rw [node?, node?, hempty, if_neg Bool.false_ne_true, if_neg Bool.false_ne_true, erase,
      lookup_filter_ne]

theorem concat_ne_nil (place : Location) (name : Text) : place ++ [name] ≠ [] :=
  List.append_ne_nil_of_right_ne_nil _ (List.cons_ne_nil _ _)

theorem lookInto_eq_ok {u : Unit} : w.lookInto p = .ok u ↔ w.node? p = some .directory := by
  rw [lookInto]
  split <;> simp_all

end Nodes

/-- Every directory still stands, and work is done in the same place. -/
structure Preserves (w w' : Workspace) : Prop where
  here : w'.here = w.here
  directory : ∀ {p}, w.node? p = some .directory → w'.node? p = some .directory

/-- What is not put in the place of a directory preserves them all. -/
theorem preserves_put {w : Workspace} {p : Location} {n : Node} (hp : p ≠ [])
    (hn : w.node? p = some .directory → n = .directory) : Preserves w (w.put p n) := by
  refine ⟨rfl, fun {q} hq => ?_⟩
  rw [node?_put hp]
  split
  · next heq => rw [hn (heq ▸ hq)]
  · exact hq

theorem Preserves.start_eq {w w' : Workspace} (h : Preserves w w') (path : Text) :
    w'.start path = w.start path := by
  rw [start, start, h.here]

/-- An absolute path starts at the root. -/
theorem start_eq_nil {w : Workspace} {path : Text} (h : Path.isAbsolute path = true) :
    w.start path = [] := by
  rw [start, if_pos h]

/-- One step of a walk. -/
inductive Enters (w : Workspace) (p : Location) : Text → Location → Prop
  | here : Enters w p Path.here p
  | up : Enters w p Path.up p.dropLast
  | name {name : Text} (hhere : name ≠ Path.here) (hup : name ≠ Path.up)
      (hlength : name.byteLength ≤ maxNameLength) (hsome : (w.node? (p ++ [name])).isSome) :
      Enters w p name (p ++ [name])

section Walk
variable {w w' : Workspace} {p q r : Location} {name : Text} {names front back : List Text}

theorem enter_eq_ok : w.enter p name = .ok q ↔ w.node? p = some .directory ∧ Enters w p name q := by
  constructor
  · intro h
    obtain ⟨_, hlook, h⟩ := bind_eq_ok h
    refine ⟨lookInto_eq_ok.mp hlook, ?_⟩
    split at h
    · next hhere =>
      cases h
      rw [hhere]
      exact .here
    · next hhere =>
      split at h
      · next hup =>
        cases h
        rw [hup]
        exact .up
      · next hup =>
        split at h
        · cases h
        · next hlength =>
          split at h
          · next hsome =>
            cases h
            exact .name hhere hup (Nat.not_lt.mp hlength) hsome
          · cases h
  · rintro ⟨hdir, h⟩
    have hlook : w.lookInto p = .ok () := lookInto_eq_ok.mpr hdir
    rw [enter, hlook]
    cases h with
    | here => rfl
    | up => rfl
    | name hhere hup hlength hsome =>
        simp only [if_neg hhere, if_neg hup, if_neg (Nat.not_lt.mpr hlength), if_pos hsome]
        rfl

theorem walk_cons : w.walk p (name :: names) = w.enter p name >>= fun q => w.walk q names :=
  List.foldlM_cons ..

theorem walk_append : w.walk p (front ++ back) = w.walk p front >>= fun q => w.walk q back :=
  List.foldlM_append ..

theorem walk_concat_eq_ok : w.walk p (names ++ [name]) = .ok r ↔
    ∃ q, w.walk p names = .ok q ∧ w.enter q name = .ok r := by
  rw [walk_append]
  constructor
  · intro h
    obtain ⟨q, hq, h⟩ := bind_eq_ok h
    rw [walk_cons] at h
    obtain ⟨_, henter, h⟩ := bind_eq_ok h
    cases h
    exact ⟨q, hq, henter⟩
  · rintro ⟨q, hq, henter⟩
    rw [hq]
    change w.walk q [name] = _
    rw [walk_cons, henter]
    rfl

/-- A walk of some steps starts at a directory. -/
theorem directory_of_walk_ne_nil (hne : names ≠ []) (h : w.walk p names = .ok q) :
    w.node? p = some .directory := by
  cases names with
  | nil => exact absurd rfl hne
  | cons name names =>
      rw [walk_cons] at h
      obtain ⟨_, henter, -⟩ := bind_eq_ok h
      exact (enter_eq_ok.mp henter).1

/-- What leads to a directory starts at one. -/
theorem directory_of_walk (h : w.walk p names = .ok q) (hq : w.node? q = some .directory) :
    w.node? p = some .directory := by
  cases names with
  | nil =>
      cases h
      exact hq
  | cons name names => exact directory_of_walk_ne_nil (List.cons_ne_nil name names) h

/-- A walk to a directory needs nothing but directories. -/
theorem Preserves.walk (hkeep : Preserves w w') (h : w.walk p names = .ok q)
    (hq : w.node? q = some .directory) : w'.walk p names = .ok q := by
  induction names generalizing p with
  | nil =>
      cases h
      rfl
  | cons name names ih =>
      rw [walk_cons] at h
      obtain ⟨r, henter, hrest⟩ := bind_eq_ok h
      obtain ⟨hdir, henters⟩ := enter_eq_ok.mp henter
      have hr : w'.node? r = some .directory := hkeep.directory (directory_of_walk hrest hq)
      have henters' : Enters w' p name r := by
        cases henters with
        | here => exact .here
        | up => exact .up
        | name hhere hup hlength _ => exact .name hhere hup hlength (by rw [hr]; rfl)
      rw [walk_cons, enter_eq_ok.mpr ⟨hkeep.directory hdir, henters'⟩]
      exact ih hrest

section Clean
variable {rooted : Bool} {start : Location} {stack : List Text}

/-- A step that is made behind a clean walk is made by a clean walk. -/
theorem walk_push (hrooted : rooted = true → start = []) (hkempt : Path.Kempt stack)
    (hwalk : w.walk start stack.reverse = .ok p) (hname : name ≠ [])
    (henter : w.enter p name = .ok q) :
    w.walk start (Path.push rooted stack name).reverse = .ok q := by
  have hconcat : w.walk start (stack.reverse ++ [name]) = .ok q :=
    walk_concat_eq_ok.mpr ⟨p, hwalk, henter⟩
  obtain ⟨-, henters⟩ := enter_eq_ok.mp henter
  cases henters with
  | here => exact hwalk
  | name hhere hup _ _ =>
      rw [Path.push_name hname hhere hup, List.reverse_cons, hconcat]
  | up =>
      cases stack with
      | nil =>
          cases hwalk
          cases rooted with
          | true =>
              rw [hrooted rfl]
              rfl
          | false => exact hconcat
      | cons last rest =>
          rw [Path.push_up_cons]
          split
          · rw [List.reverse_cons, hconcat]
          · next hlast =>
            -- The last step went down by a name, so going up leads back to where it started.
            rw [List.reverse_cons] at hwalk
            obtain ⟨r, hrest, hlastStep⟩ := walk_concat_eq_ok.mp hwalk
            obtain ⟨-, henters⟩ := enter_eq_ok.mp hlastStep
            cases henters with
            | here => exact absurd rfl (hkempt _ List.mem_cons_self).2
            | up => exact absurd rfl hlast
            | name _ _ _ _ => rw [hrest, List.dropLast_concat]

/-- A clean walk leads to where a walk leads. -/
theorem walk_foldl_push (hrooted : rooted = true → start = []) (hkempt : Path.Kempt stack)
    (hwalk : w.walk start stack.reverse = .ok p) (hnames : ∀ n ∈ names, Path.Component n)
    (h : w.walk p names = .ok q) :
    w.walk start (names.foldl (Path.push rooted) stack).reverse = .ok q := by
  induction names generalizing stack p with
  | nil =>
      cases h
      exact hwalk
  | cons name names ih =>
      rw [walk_cons] at h
      obtain ⟨r, henter, h⟩ := bind_eq_ok h
      obtain ⟨hname, hnames⟩ := List.forall_mem_cons.mp hnames
      exact ih (Path.kempt_push hkempt hname)
        (walk_push hrooted hkempt hwalk hname.nonempty henter) hnames h

/-- A clean walk from where a path starts leads to where a walk leads. -/
theorem walk_clean {path : Text} (hnames : ∀ n ∈ names, Path.Component n)
    (h : w.walk (w.start path) names = .ok q) : w.walk (w.start path)
      (names.foldl (Path.push (Path.isAbsolute path)) []).reverse = .ok q :=
  walk_foldl_push start_eq_nil (fun _ hmem => absurd hmem List.not_mem_nil) rfl hnames h

end Clean

/-- Behind a step to what is no directory, no clean component is taken back. -/
theorem push_eq_cons_of_enter {rooted : Bool} {start : Location} {stack : List Text}
    (hrooted : rooted = true → start = []) (hkempt : Path.Kempt stack)
    (hwalk : w.walk start stack.reverse = .ok p) (hname : name ≠ [])
    (henter : w.enter p name = .ok q) (hq : w.node? q ≠ some .directory) :
    Path.push rooted stack name = name :: stack := by
  have hpush := walk_push hrooted hkempt hwalk hname henter
  refine (Path.push_eq_cons_or_suffix rooted stack name).resolve_right ?_
  rintro ⟨popped, hpopped⟩
  rw [← hpopped, List.reverse_append, walk_append, hpush] at hwalk
  exact hq (directory_of_walk hwalk (enter_eq_ok.mp henter).1)

end Walk

section Locate
variable {w : Workspace} {path : Text} {p : Location}

theorem checkPath_eq_ok : checkPath path = .ok () ↔
    '\x00' ∉ path ∧ path ≠ [] ∧ path.byteLength ≤ maxPathLength := by
  unfold checkPath
  by_cases hnull : '\x00' ∈ path
  · simp [hnull]
  · by_cases hnil : path = []
    · simp [hnil]
    · by_cases hlength : path.byteLength ≤ maxPathLength
      · simp [hnull, hnil, hlength]
      · simp [hnull, hnil, hlength]

theorem checkPath_clean (h : checkPath path = .ok ()) : checkPath (Path.clean path) = .ok () := by
  by_cases hleft : Path.left path = []
  · rw [Path.clean_eq, hleft]
    cases Path.isAbsolute path with
    | true => decide
    | false => decide
  · have hsub := Path.clean_sublist hleft
    rw [checkPath_eq_ok] at h ⊢
    obtain ⟨hnull, -, hlength⟩ := h
    exact ⟨fun hmem => hnull (hsub.subset hmem), Path.clean_ne_nil path,
      Nat.le_trans (Text.byteLength_le_of_sublist hsub) hlength⟩

theorem locate_eq_ok : w.locate path = .ok p ↔
    checkPath path = .ok () ∧ w.walk (w.start path) (Path.names path) = .ok p := by
  constructor
  · intro h
    obtain ⟨_, hcheck, hwalk⟩ := bind_eq_ok h
    exact ⟨hcheck, hwalk⟩
  · rintro ⟨hcheck, hwalk⟩
    rw [locate, hcheck]
    exact hwalk

/-- The clean form of a path leads to where the path leads. -/
theorem locate_clean (h : w.locate path = .ok p) : w.locate (Path.clean path) = .ok p := by
  obtain ⟨hcheck, hwalk⟩ := locate_eq_ok.mp h
  have hclean : w.walk (w.start path) (Path.left path).reverse = .ok p :=
    walk_clean (fun _ => Path.component_of_mem_names) hwalk
  have hstart : w.start (Path.clean path) = w.start path := by
    rw [start, start, Path.isAbsolute_clean]
  rw [locate_eq_ok, hstart]
  refine ⟨checkPath_clean hcheck, ?_⟩
  by_cases hleft : Path.left path = []
  · rw [hleft] at hclean
    cases hclean
    rw [Path.clean_eq, hleft]
    cases habsolute : Path.isAbsolute path with
    | true => rfl
    | false =>
        -- The path has a component, so the walk started by looking into a directory.
        have hnames : Path.names path ≠ [] := by
          intro hnil
          have hroot := Path.isAbsolute_of_names_eq_nil hnil (checkPath_eq_ok.mp hcheck).2.1
          rw [habsolute] at hroot
          cases hroot
        have hdir := directory_of_walk_ne_nil hnames hwalk
        change w.walk (w.start path) [Path.here] = _
        rw [walk_cons, enter_eq_ok.mpr ⟨hdir, .here⟩]
        rfl
  · rw [Path.names_clean path hleft]
    exact hclean

/-- What leads to no directory ends with a component that stays in its clean form. -/
theorem exists_left_eq_cons (h : w.locate path = .ok p) (hp : w.node? p ≠ some .directory) :
    ∃ name rest, Path.left path = name :: rest ∧ (Path.names path).getLast? = some name := by
  obtain ⟨hcheck, hwalk⟩ := locate_eq_ok.mp h
  rcases List.eq_nil_or_concat' (Path.names path) with hnil | ⟨front, name, hfront⟩
  · rw [hnil, start_eq_nil (Path.isAbsolute_of_names_eq_nil hnil (checkPath_eq_ok.mp hcheck).2.1)]
      at hwalk
    cases hwalk
    exact absurd rfl hp
  · have hcomponents : ∀ n ∈ front ++ [name], Path.Component n := by
      rw [← hfront]
      exact fun _ => Path.component_of_mem_names
    obtain ⟨hfrontNames, hname⟩ := List.forall_mem_append.mp hcomponents
    rw [hfront] at hwalk ⊢
    obtain ⟨q, hq, henter⟩ := walk_concat_eq_ok.mp hwalk
    have hkempt : Path.Kempt (front.foldl (Path.push (Path.isAbsolute path)) []) :=
      Path.kempt_foldl_push (fun _ hmem => absurd hmem List.not_mem_nil) hfrontNames
    refine ⟨name, front.foldl (Path.push (Path.isAbsolute path)) [], ?_, List.getLast?_concat⟩
    rw [Path.left, hfront, List.foldl_concat]
    exact push_eq_cons_of_enter start_eq_nil hkempt (walk_clean hfrontNames hq)
      (hname name (List.mem_singleton_self name)).nonempty henter hp

end Locate

/-- A path that names something in a directory, be it there or not. -/
structure Opens (w : Workspace) (path : Text) (place : Location) (name : Text) : Prop where
  check : checkPath path = .ok ()
  walk : ∃ front, Path.names path = front ++ [name] ∧ w.walk (w.start path) front = .ok place
  directory : w.node? place = some .directory
  ne_here : name ≠ Path.here
  ne_up : name ≠ Path.up
  length : name.byteLength ≤ maxNameLength

section Opens
variable {w w' : Workspace} {path name : Text} {place p : Location}

theorem opens_of_slot (h : w.slot path = .ok (place, name)) : Opens w path place name := by
  unfold slot at h
  obtain ⟨_, hcheck, h⟩ := bind_eq_ok h
  simp only at h
  split at h
  · cases h
  · next last hlast =>
    obtain ⟨_, hwalk, h⟩ := bind_eq_ok h
    obtain ⟨_, hlook, h⟩ := bind_eq_ok h
    split at h
    · cases h
    · next hdots =>
      obtain ⟨hhere, hup⟩ := not_or.mp hdots
      split at h
      · cases h
      · next hlength =>
        cases h
        exact ⟨hcheck, ⟨_, (List.dropLast_append_getLast? name hlast).symm, hwalk⟩,
          lookInto_eq_ok.mp hlook, hhere, hup, Nat.not_lt.mp hlength⟩

theorem Opens.locate_eq_ok_iff (h : Opens w path place name) :
    w.locate path = .ok p ↔ p = place ++ [name] ∧ (w.node? (place ++ [name])).isSome := by
  obtain ⟨front, hfront, hwalk⟩ := h.walk
  rw [locate_eq_ok, hfront, walk_concat_eq_ok]
  constructor
  · rintro ⟨-, q, hq, henter⟩
    cases hq.symm.trans hwalk
    obtain ⟨-, henters⟩ := enter_eq_ok.mp henter
    cases henters with
    | here => exact absurd rfl h.ne_here
    | up => exact absurd rfl h.ne_up
    | name _ _ _ hsome => exact ⟨rfl, hsome⟩
  · rintro ⟨rfl, hsome⟩
    exact ⟨h.check, place, hwalk,
      enter_eq_ok.mpr ⟨h.directory, .name h.ne_here h.ne_up h.length hsome⟩⟩

/-- Something in a directory is named by the same path as long as the directories are kept. -/
theorem Opens.preserved (h : Opens w path place name) (hkeep : Preserves w w') :
    Opens w' path place name := by
  obtain ⟨front, hfront, hwalk⟩ := h.walk
  refine ⟨h.check, ⟨front, hfront, ?_⟩, hkeep.directory h.directory, h.ne_here, h.ne_up, h.length⟩
  rw [hkeep.start_eq]
  exact hkeep.walk hwalk h.directory

/-- What is put where a path names something is found there. -/
theorem Opens.locate_put (h : Opens w path place name) {n : Node}
    (hn : w.node? (place ++ [name]) = some .directory → n = .directory) :
    (w.put (place ++ [name]) n).locate path = .ok (place ++ [name]) := by
  have hput : (w.put (place ++ [name]) n).node? (place ++ [name]) = some n := by
    rw [node?_put (concat_ne_nil place name), if_pos rfl]
  have hopens : Opens (w.put (place ++ [name]) n) path place name :=
    h.preserved (preserves_put (concat_ne_nil place name) hn)
  rw [hopens.locate_eq_ok_iff, hput]
  exact ⟨rfl, rfl⟩

/-- A path that ends with a slash leads to the directory that its clean form leads to. -/
theorem Opens.locate_of_slash (h : Opens w path place name) (hslash : path.getLast? = some '/')
    (hwalk : w.walk (w.start path) (Path.names (Path.directory path)) = .ok p) :
    w.locate path = .ok p := by
  obtain ⟨front, hfront, hplace⟩ := h.walk
  have hcomponents : ∀ n ∈ front ++ [name], Path.Component n := by
    rw [← hfront]
    exact fun _ => Path.component_of_mem_names
  have hname : Path.Component name := hcomponents name (by simp)
  have hleft : Path.left path =
      name :: front.foldl (Path.push (Path.isAbsolute path)) [] := by
    rw [Path.left, hfront, List.foldl_concat, Path.push_name hname.nonempty h.ne_here h.ne_up]
  have hclean : w.walk (w.start path)
      (front.foldl (Path.push (Path.isAbsolute path)) []).reverse = .ok place :=
    walk_clean (fun n hn => hcomponents n (List.mem_append_left _ hn)) hplace
  have hne : Path.left path ≠ [] := by
    rw [hleft]
    exact List.cons_ne_nil _ _
  rw [Path.directory_of_slash hslash, Path.names_clean path hne, hleft, List.reverse_cons,
    walk_concat_eq_ok] at hwalk
  obtain ⟨q, hq, henter⟩ := hwalk
  cases hq.symm.trans hclean
  rw [locate_eq_ok, hfront, walk_concat_eq_ok]
  exact ⟨h.check, place, hplace, henter⟩

end Opens

end Marginalia.Workspace
