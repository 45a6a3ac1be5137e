import Marginalia.Proofs.Walk

/-!
# Writing a file changes that file alone

Writing goes through a temporary file at a place where nothing stood. Whichever step fails, that file
is removed and nothing has been added but directories on the way to the destination. If all steps are
done, the file has moved, so that there is nothing to remove; the destination holds the content and
every other place is as it was, but for those directories. The name of the temporary file is drawn: a
destination that has a drawn name itself is moved onto itself and then removed.
-/
namespace Marginalia.Workspace

section Ensures
variable {ε ε' α β : Type} {w : Workspace} {done : α → Workspace → Prop} {failed : Workspace → Prop}

/-- What is claimed of the end of some work: one thing if it is done, another if it fails. -/
def Ends (done : α → Workspace → Prop) (failed : Workspace → Prop) : Except ε α × Workspace → Prop
  | (.ok v, w) => done v w
  | (.error _, w) => failed w

/-- What holds behind some work on a workspace. -/
def Ensures (x : Work ε α) (w : Workspace) (done : α → Workspace → Prop)
    (failed : Workspace → Prop) : Prop := Ends done failed (x.run.run w)

variable {x : Work ε α}

theorem Ensures.imp (h : Ensures x w done failed) {done' : α → Workspace → Prop}
    {failed' : Workspace → Prop} (hdone : ∀ v w', done v w' → done' v w')
    (hfailed : ∀ w', failed w' → failed' w') : Ensures x w done' failed' := by
  unfold Ensures at h ⊢
  generalize x.run.run w = r at h ⊢
  obtain ⟨e | v, w'⟩ := r
  · exact hfailed w' h
  · exact hdone v w' h

theorem Ensures.and {done' : α → Workspace → Prop} {failed' : Workspace → Prop}
    (h : Ensures x w done failed) (h' : Ensures x w done' failed') :
    Ensures x w (fun v w' => done v w' ∧ done' v w') fun w' => failed w' ∧ failed' w' := by
  unfold Ensures at h h' ⊢
  generalize x.run.run w = r at h h' ⊢
  obtain ⟨e | v, w'⟩ := r
  · exact ⟨h, h'⟩
  · exact ⟨h, h'⟩

theorem Ensures.bind (h : Ensures x w done failed) {f : α → Work ε β}
    {done' : β → Workspace → Prop} (hf : ∀ v w', done v w' → Ensures (f v) w' done' failed) :
    Ensures (x >>= f) w done' failed := by
  unfold Ensures at h ⊢
  rw [ExceptT.run_bind, StateT.run_bind]
  generalize x.run.run w = r at h ⊢
  obtain ⟨e | v, w'⟩ := r
  · exact h
  · exact hf v w' h

theorem Ensures.get_bind {f : Workspace → Work ε α} (h : Ensures (f w) w done failed) :
    Ensures (get >>= f) w done failed := h

theorem Ensures.adapt (h : Ensures x w done failed) (f : ε → ε') :
    Ensures (x.adapt f) w done failed := by
  unfold Ensures at h ⊢
  rw [run_adapt]
  generalize x.run.run w = r at h ⊢
  obtain ⟨e | v, w'⟩ := r
  · exact h
  · exact h

theorem Ensures.during {x : Work FileError α} (h : Ensures x w done failed) (step : WriteStep)
    (path : Text) : Ensures (during step path x) w done failed := h.adapt _

theorem Ensures.modify_bind {change : Workspace → Workspace} {f : PUnit → Work ε α}
    (h : Ensures (f ⟨⟩) (change w) done failed) : Ensures (modify change >>= f) w done failed := h

theorem run_tryFinally (x : Work ε α) (clean : Workspace → Workspace) (w : Workspace) :
    (tryFinally x (modify clean)).run.run w = ((x.run.run w).1, clean (x.run.run w).2) := by
  obtain ⟨⟨e | v, w'⟩, hx⟩ : ∃ r, x w = r := ⟨_, rfl⟩
  all_goals
    simp only [tryFinally, tryFinally', ExceptT.run, StateT.run, ExceptT.mk, ExceptT.map,
      Functor.map, bind, StateT.bind, pure, hx]
    rfl

/-- What is done in the end is done after a success and after a failure. -/
theorem Ensures.cleaning {clean : Workspace → Workspace}
    (h : Ensures x w (fun v w' => done v (clean w')) fun w' => failed (clean w')) :
    Ensures (tryFinally x (modify clean)) w done failed := by
  unfold Ensures at h ⊢
  rw [run_tryFinally]
  generalize x.run.run w = r at h ⊢
  obtain ⟨e | v, w'⟩ := r
  · exact h
  · exact h

/-- A step that fails changes nothing. -/
theorem attempt_ensures {s : Storage} {step : WriteStep} {operands : List Text}
    {work : Workspace → Except Trouble (α × Workspace)} :
    Ensures (attempt s step operands work) w (fun v w' => work w = .ok (v, w')) (· = w) := by
  unfold attempt
  split
  · rfl
  · refine .get_bind ?_
    split
    · next hwork => exact hwork
    · rfl

/-- What holds in front of a step holds behind its failure. -/
theorem during_attempt_ensures {s : Storage} {step : WriteStep} {path : Text} {operands : List Text}
    {work : Workspace → Except Trouble (α × Workspace)} (h : failed w) :
    Ensures (during step path (attempt s step operands work)) w
      (fun v w' => work w = .ok (v, w')) failed :=
  (attempt_ensures.imp (fun _ _ hwork => hwork) fun _ hsame => hsame ▸ h).during _ _

end Ensures

/-- What a place holds is unchanged, or it was free and a directory was made there, to which one of
some paths leads. -/
def Kept (made : List Text) (w w' : Workspace) (p : Location) : Prop :=
  w'.node? p = w.node? p ∨
    w.node? p = none ∧ w'.node? p = some .directory ∧ ∃ a ∈ made, w'.locate a = .ok p

/-- A workspace to which nothing was added but directories. -/
structure Readied (made : List Text) (w w' : Workspace) : Prop where
  here : w'.here = w.here
  kept : ∀ p, Kept made w w' p

/-- A path that leads to a directory. -/
def Leads (w : Workspace) (path : Text) : Prop :=
  ∃ p, w.locate path = .ok p ∧ w.node? p = some .directory

section Readied
variable {w w' w'' : Workspace} {made made' : List Text} {path : Text} {p : Location}

theorem Preserves.locate (hkeep : Preserves w w') (h : w.locate path = .ok p)
    (hp : w.node? p = some .directory) : w'.locate path = .ok p := by
  obtain ⟨hcheck, hwalk⟩ := locate_eq_ok.mp h
  rw [locate_eq_ok, hkeep.start_eq]
  exact ⟨hcheck, hkeep.walk hwalk hp⟩

theorem Leads.preserved (h : Leads w path) (hkeep : Preserves w w') : Leads w' path := by
  obtain ⟨p, hlocate, hp⟩ := h
  exact ⟨p, hkeep.locate hlocate hp, hkeep.directory hp⟩

theorem Readied.refl (made : List Text) (w : Workspace) : Readied made w w :=
  ⟨rfl, fun _ => .inl rfl⟩

theorem Kept.eq_of_some (h : Kept made w w' p) {n : Node} (hn : w.node? p = some n) :
    w'.node? p = some n := by
  rcases h with heq | ⟨hnone, -⟩
  · rw [heq, hn]
  · rw [hn] at hnone
    cases hnone

theorem Readied.some_eq (h : Readied made w w') {n : Node} (hn : w.node? p = some n) :
    w'.node? p = some n := (h.kept p).eq_of_some hn

theorem Readied.preserves (h : Readied made w w') : Preserves w w' := ⟨h.here, h.some_eq⟩

theorem Readied.mono (h : Readied made w w') (hsub : made ⊆ made') : Readied made' w w' := by
  refine ⟨h.here, fun p => ?_⟩
  rcases h.kept p with heq | ⟨hnone, hdir, a, ha, hlocate⟩
  · exact .inl heq
  · exact .inr ⟨hnone, hdir, a, hsub ha, hlocate⟩

theorem Readied.trans (h : Readied made w w') (h' : Readied made w' w'') : Readied made w w'' := by
  refine ⟨h'.here.trans h.here, fun p => ?_⟩
  rcases h.kept p with heq | ⟨hnone, hdir, a, ha, hlocate⟩
  · rcases h'.kept p with heq' | ⟨hnone, hmade⟩
    · exact .inl (heq'.trans heq)
    · exact .inr ⟨heq ▸ hnone, hmade⟩
  · exact .inr ⟨hnone, h'.some_eq hdir, a, ha, h'.preserves.locate hlocate hdir⟩

end Readied

section Directories
variable {w : Workspace} {s : Storage}

theorem stat_eq_directory {path : Text} (h : w.stat path = .ok .directory) : Leads w path := by
  obtain ⟨p, hlocate, h⟩ := bind_eq_ok h
  refine ⟨p, hlocate, ?_⟩
  split at h
  · assumption
  · cases h
  · split at h <;> cases h
  · cases h

theorem stat_eq_file {path : Text} {content : Bytes} (h : w.stat path = .ok (.file content)) :
    path.getLast? ≠ some '/' ∧ ∃ p, w.locate path = .ok p ∧ w.node? p = some (.file content) := by
  obtain ⟨p, hlocate, h⟩ := bind_eq_ok h
  split at h
  · cases h
  · cases h
  · next hp =>
    split at h
    · cases h
    · next hslash =>
      cases h
      exact ⟨hslash, p, hlocate, hp⟩
  · cases h

theorem stat_of_read {path : Text} {content : Bytes} (h : w.read path = .ok content) :
    w.stat path = .ok (.file content) := by
  unfold read at h
  split at h
  · next hstat =>
    cases h
    exact hstat
  · cases h
  · cases h

theorem makeDirectory_readied {path : Text} {w' : Workspace} (h : w.makeDirectory path = .ok w') :
    Readied [path] w w' ∧ Leads w' path := by
  obtain ⟨⟨place, name⟩, hslot, h⟩ := bind_eq_ok h
  have hopens := opens_of_slot hslot
  simp only at h
  split at h
  · cases h
  · next hfree =>
    cases h
    have hnone : w.node? (place ++ [name]) = none := by simpa using hfree
    have hput : ∀ p, (w.put (place ++ [name]) .directory).node? p =
        if p = place ++ [name] then some .directory else w.node? p :=
      fun p => node?_put (concat_ne_nil place name)
    have hnew : (w.put (place ++ [name]) .directory).node? (place ++ [name]) = some .directory := by
      rw [hput, if_pos rfl]
    have hlocate := hopens.locate_put (n := .directory) fun _ => rfl
    refine ⟨⟨rfl, fun p => ?_⟩, place ++ [name], hlocate, hnew⟩
    by_cases hp : p = place ++ [name]
    · exact .inr ⟨hp ▸ hnone, hp ▸ hnew, path, List.mem_singleton_self path, hp ▸ hlocate⟩
    · exact .inl (by rw [hput, if_neg hp])

/-- A directory is there already, or it is made. -/
theorem ensureDirectory_ensures (path : Text) :
    Ensures (ensureDirectory s path) w (fun _ w' => Readied [path] w w' ∧ Leads w' path)
      (Readied [path] w) := by
  have hsame : Readied [path] w w := .refl _ w
  refine .get_bind ?_
  split
  · next hstat => exact ⟨hsame, stat_eq_directory hstat⟩
  · exact hsame
  · refine attempt_ensures.imp (fun _ w' h => ?_) fun w' h => h ▸ hsame
    obtain ⟨made, hmade, h⟩ := bind_eq_ok h
    cases h
    exact makeDirectory_readied hmade

theorem forM_ensureDirectory (paths : List Text) (w : Workspace) :
    Ensures (paths.forM (ensureDirectory s)) w
      (fun _ w' => Readied paths w w' ∧ ∀ a ∈ paths, Leads w' a) (Readied paths w) := by
  induction paths generalizing w with
  | nil => exact ⟨.refl _ w, fun _ h => absurd h List.not_mem_nil⟩
  | cons path paths ih =>
      have hhead : [path] ⊆ path :: paths := by simp
      change Ensures (ensureDirectory s path >>= fun _ => paths.forM (ensureDirectory s)) w _ _
      refine ((ensureDirectory_ensures path).imp (fun _ _ h => h) fun _ h => h.mono hhead).bind ?_
      rintro _ w' ⟨hready, hleads⟩
      have hready := hready.mono hhead
      have htail := ih w'
      refine htail.imp ?_ fun w'' h => hready.trans (h.mono (List.subset_cons_self _ _))
      rintro _ w'' ⟨hready', hleads'⟩
      refine ⟨hready.trans (hready'.mono (List.subset_cons_self _ _)), ?_⟩
      rw [List.forall_mem_cons]
      exact ⟨hleads.preserved hready'.preserves, hleads'⟩

end Directories

/-- The directory of a path that ends with a slash can be walked to once it is ensured. -/
theorem exists_walk_directory {w : Workspace} {path : Text} (hslash : path.getLast? = some '/')
    (hleads : ∀ a ∈ Path.ancestry (Path.directory path), Leads w a) :
    ∃ p, w.walk (w.start path) (Path.names (Path.directory path)) = .ok p ∧
      w.node? p = some .directory := by
  rw [Path.directory_of_slash hslash] at hleads ⊢
  by_cases hnames : Path.names (Path.clean path) = []
  · refine ⟨[], ?_, rfl⟩
    rw [hnames, start_eq_nil (Path.isAbsolute_of_names_clean hnames)]
    rfl
  · obtain ⟨a, ha, hsame, habsolute⟩ := Path.exists_mem_ancestry hnames
    obtain ⟨p, hlocate, hp⟩ := hleads a ha
    obtain ⟨-, hwalk⟩ := locate_eq_ok.mp hlocate
    have hstart : w.start a = w.start path := by
      rw [start, start, habsolute, Path.isAbsolute_clean]
    rw [hsame, hstart] at hwalk
    exact ⟨p, hwalk, hp⟩

section Temporary

theorem isNone_toOption {ε α : Type} {x : Except ε α} :
    x.toOption.isNone = true ↔ ∀ v, x ≠ .ok v := by
  cases x with
  | error e => exact ⟨fun _ _ => nofun, fun _ => rfl⟩
  | ok v => exact ⟨nofun, fun h => absurd rfl (h v)⟩

theorem names_pathIn (directory : Text) {name : Text} (h : Path.Component name) :
    Path.names (pathIn directory name) = Path.names directory ++ [name] := by
  rw [pathIn]
  split
  · next hlast =>
    obtain ⟨front, rfl⟩ : ∃ front, directory = front ++ ['/'] :=
      ⟨_, (List.dropLast_append_getLast? '/' hlast).symm⟩
    rw [List.append_assoc, List.singleton_append, Path.names_append, Path.names_append, h.names_eq]
    simp [Path.names, Text.splitAtChar]
  · change Path.names ((directory ++ ['/']) ++ name) = _
    rw [List.append_assoc, List.singleton_append, Path.names_append, h.names_eq]

theorem length_temporaryName (k : Nat) : (temporaryName k).length = (Text.ofNat k).length + 12 := by
  unfold temporaryName
  rw [List.length_append, List.length_append, Nat.add_right_comm, Nat.add_comm]
  rfl

theorem component_temporaryName (k : Nat) : Path.Component (temporaryName k) := by
  have hdigits : '/' ∉ Text.ofNat k := by
    intro hmem
    have hdigit := Nat.isDigit_of_mem_toDigits (by decide) (by decide) hmem
    exact absurd hdigit (by decide)
  constructor
  · intro h
    have hlength := length_temporaryName k
    rw [h] at hlength
    cases hlength
  · unfold temporaryName
    rw [List.mem_append, List.mem_append, not_or, not_or]
    exact ⟨⟨by decide, hdigits⟩, by decide⟩

theorem firstFree?_eq_some {name : Text} {isFree : Text → Bool} {draw : Nat → Nat} {draws k : Nat}
    (h : firstFree? isFree draw draws k = some name) :
    isFree name = true ∧ ∃ j < k + draws, name = temporaryName (draw j) := by
  induction draws generalizing k with
  | zero => cases h
  | succ draws ih =>
      rw [firstFree?] at h
      split at h
      · next hfree =>
        cases h
        exact ⟨hfree, k, by omega, rfl⟩
      · obtain ⟨hfree, j, hj, hname⟩ := ih h
        exact ⟨hfree, j, by omega, hname⟩

/-- None of the names that a storage draws for a temporary file is that of the destination. -/
def DrawsBeside (s : Storage) (path : Text) : Prop :=
  ∀ k < maxDraws, (Path.names path).getLast? ≠ some (temporaryName (s.draw k))

theorem getLast?_temporaryName (k : Nat) : (temporaryName k).getLast? = some 'p' := by
  have hending (t : Text) : (t ++ ".tmp").getLast? = some 'p' := by
    have hend : (".tmp" : Text).getLast? = some 'p' := by decide
    rw [List.getLast?_append, hend, Option.some_or]
  exact hending (".solcco-" ++ Text.ofNat k)

/-- A destination whose name ends otherwise than the names of temporary files is safe from them. -/
theorem drawsBeside_of_getLast? {s : Storage} {path name : Text}
    (hname : (Path.names path).getLast? = some name) (hend : name.getLast? ≠ some 'p') :
    DrawsBeside s path := by
  intro k _ h
  rw [hname, Option.some.injEq] at h
  rw [h, getLast?_temporaryName] at hend
  exact hend rfl

/-- A path at which a new file can be made. It has not the name that another path ends with if no such
name is drawn. -/
structure Aside (w : Workspace) (s : Storage) (path temporary : Text) (place : Location)
    (name : Text) : Prop where
  opens : Opens w temporary place name
  free : w.node? (place ++ [name]) = none
  last_ne : DrawsBeside s path → (Path.names path).getLast? ≠ some name

/-- The temporary file is new and has a name that was drawn. -/
theorem createTemporary_ensures {w : Workspace} {s : Storage} {path : Text} :
    Ensures (createTemporary s path) w
      (fun made w' => ∃ place name, Aside w s path made.1 place name ∧ made.2 = place ++ [name] ∧
        w' = w.put (place ++ [name]) (.file [])) (· = w) := by
  unfold createTemporary
  simp only
  refine .get_bind ?_
  split
  · rfl
  · next drawn hdrawn =>
    obtain ⟨hfree, j, hj, rfl⟩ := firstFree?_eq_some hdrawn
    rw [isFree, isNone_toOption] at hfree
    refine attempt_ensures.imp ?_ fun _ h => h
    intro made w' h
    obtain ⟨⟨place, name⟩, hslot, h⟩ := bind_eq_ok h
    cases h
    have hopens := opens_of_slot hslot
    refine ⟨place, name, ⟨hopens, ?_, ?_⟩, rfl, rfl⟩
    · rw [Option.eq_none_iff_forall_ne_some]
      intro n hn
      exact hfree _ (hopens.locate_eq_ok_iff.mpr ⟨rfl, by rw [hn]; rfl⟩)
    · obtain ⟨front, hfront, -⟩ := hopens.walk
      rw [names_pathIn _ (component_temporaryName (s.draw j))] at hfront
      have hname := congrArg List.getLast? hfront
      rw [List.getLast?_concat, List.getLast?_concat, Option.some.injEq] at hname
      rw [← hname]
      exact fun hbeside => hbeside j (by omega)

end Temporary

/-- A file was written at a path: what the path leads to holds the content, and everything else is
kept. -/
structure Written (path : Text) (content : Bytes) (w w' : Workspace) : Prop where
  here : w'.here = w.here
  read : w'.read path = .ok content
  kept : ∃ target, w'.locate path = .ok target ∧
    ∀ p, p ≠ target → Kept (Path.ancestry (Path.directory path)) w w' p

theorem isDirectory_of_leads {w : Workspace} {path : Text} (h : Leads w path) :
    w.isDirectory path = true := by
  obtain ⟨p, hlocate, hp⟩ := h
  have hstat : w.stat path = .ok .directory := by
    simp [stat, hlocate, hp, bind, Except.bind, pure, Except.pure]
  rw [isDirectory, hstat]

theorem read_of_locate {w : Workspace} {path : Text} {p : Location} {content : Bytes}
    (hlocate : w.locate path = .ok p) (hp : w.node? p = some (.file content))
    (hslash : path.getLast? ≠ some '/') : w.read path = .ok content := by
  have hstat : w.stat path = .ok (.file content) := by
    simp [stat, hlocate, hp, hslash, bind, Except.bind, pure, Except.pure]
  rw [read, hstat]

section Rename
variable {w w₁ w₂ : Workspace} {path : Text} {content : Bytes} {source target : Location}

/-- A workspace with one more file, at a place that was free. -/
structure Holds (w : Workspace) (source : Location) (w' : Workspace) : Prop where
  ne_nil : source ≠ []
  free : w.node? source = none
  here : w'.here = w.here
  file : ∃ content, w'.node? source = some (.file content)
  others : ∀ p, p ≠ source → w'.node? p = w.node? p

theorem holds_put {place : Location} {name : Text} (hfree : w.node? (place ++ [name]) = none)
    (content : Bytes) : Holds w (place ++ [name]) (w.put (place ++ [name]) (.file content)) := by
  refine ⟨concat_ne_nil place name, hfree, rfl, ⟨content, ?_⟩, fun p hp => ?_⟩
  · rw [node?_put (concat_ne_nil place name), if_pos rfl]
  · rw [node?_put (concat_ne_nil place name), if_neg hp]

theorem Holds.put (h : Holds w source w₁) (content : Bytes) :
    Holds w source (w₁.put source (.file content)) := by
  refine ⟨h.ne_nil, h.free, h.here, ⟨content, ?_⟩, fun p hp => ?_⟩
  · rw [node?_put h.ne_nil, if_pos rfl]
  · rw [node?_put h.ne_nil, if_neg hp, h.others p hp]

/-- Without that file the workspace is as it was. -/
theorem Holds.node?_erase (h : Holds w source w₁) (p : Location) :
    (w₁.erase source).node? p = w.node? p := by
  rw [Workspace.node?_erase h.ne_nil]
  split
  · next heq => rw [heq, h.free]
  · next hne => exact h.others p hne

theorem Holds.preserves (h : Holds w source w₁) : Preserves w w₁ := by
  refine ⟨h.here, fun {p} hp => ?_⟩
  rw [h.others p, hp]
  intro heq
  rw [heq, h.free] at hp
  cases hp

theorem Holds.directory_of (h : Holds w source w₁) {p : Location}
    (hp : w₁.node? p = some .directory) : w.node? p = some .directory := by
  rw [← h.others p, hp]
  intro heq
  obtain ⟨content, hfile⟩ := h.file
  rw [heq, hfile] at hp
  cases hp

/-- A rename puts what it moves where its path names something, and never in the place of a
directory. -/
theorem rename_eq_ok {n : Node} (hn : w.node? source = some n) (h : w.rename source path = .ok w₁) :
    ∃ place name, Opens w path place name ∧ ¬Leads w path ∧
      w₁ = (w.erase source).put (place ++ [name]) n := by
  unfold rename at h
  split at h
  · cases h
  · next hdirectory =>
    obtain ⟨⟨place, name⟩, hslot, h⟩ := bind_eq_ok h
    simp only [hn] at h
    cases h
    exact ⟨place, name, opens_of_slot hslot, fun hleads => hdirectory (isDirectory_of_leads hleads),
      rfl⟩

/-- A file that is renamed to itself is still there. -/
theorem Holds.replaced (h : Holds w source w₁) (content : Bytes) :
    Holds w source ((w₁.erase source).put source (.file content)) := by
  refine ⟨h.ne_nil, h.free, h.here, ⟨content, ?_⟩, fun p hp => ?_⟩
  · rw [node?_put h.ne_nil, if_pos rfl]
  · rw [node?_put h.ne_nil, if_neg hp, h.node?_erase]

/-- Renaming the temporary file to another writes the destination, and its own place is free again. -/
theorem Holds.written {place : Location} {name : Text} (h : Holds w₁ source w₂)
    (hready : Readied (Path.ancestry (Path.directory path)) w w₁)
    (hleads : ∀ a ∈ Path.ancestry (Path.directory path), Leads w₁ a)
    (hopens : Opens w₂ path place name) (hnot : ¬Leads w₂ path)
    (hsource : source ≠ place ++ [name]) :
    let w₃ := (w₂.erase source).put (place ++ [name]) (.file content)
    Written path content w w₃ ∧ Preserves w₁ w₃ ∧ w₃.node? source = none := by
  intro w₃
  have htarget : w₂.node? (place ++ [name]) ≠ some .directory := by
    intro hdir
    exact hnot ⟨_, hopens.locate_eq_ok_iff.mpr ⟨rfl, by rw [hdir]; rfl⟩, hdir⟩
  have hnode : ∀ p, w₃.node? p =
      if p = place ++ [name] then some (.file content) else w₁.node? p := by
    intro p
    rw [node?_put (concat_ne_nil place name), h.node?_erase]
  have hkeep : Preserves w₁ w₃ := by
    refine ⟨h.here, fun {p} hp => ?_⟩
    rw [hnode, if_neg, hp]
    rintro rfl
    exact htarget (h.preserves.directory hp)
  have hlocate : w₃.locate path = .ok (place ++ [name]) := by
    have hkeep' : Preserves w₂ w₃ := ⟨rfl, fun hp => hkeep.directory (h.directory_of hp)⟩
    have hopens' := hopens.preserved hkeep'
    rw [hopens'.locate_eq_ok_iff, hnode, if_pos rfl]
    exact ⟨rfl, rfl⟩
  have hslash : path.getLast? ≠ some '/' := by
    intro hslash
    obtain ⟨p, hwalk, hp⟩ := exists_walk_directory hslash hleads
    have hwalk₂ := h.preserves.walk hwalk hp
    rw [← h.preserves.start_eq path] at hwalk₂
    exact hnot ⟨p, hopens.locate_of_slash hslash hwalk₂, h.preserves.directory hp⟩
  refine ⟨⟨h.here.trans hready.here, ?_, place ++ [name], hlocate, fun p hp => ?_⟩, hkeep, ?_⟩
  · exact read_of_locate hlocate (by rw [hnode, if_pos rfl]) hslash
  · rcases hready.kept p with heq | ⟨hnone, hdir, a, ha, hlocate⟩
    · exact .inl (by rw [hnode, if_neg hp, heq])
    · exact .inr ⟨hnone, hkeep.directory hdir, a, ha, hkeep.locate hlocate hdir⟩
  · rw [hnode, if_neg hsource, h.free]

end Rename

section Remove
variable {w : Workspace} {path name : Text} {place : Location}

/-- Where nothing stands there is nothing to remove. -/
theorem Opens.remove_eq_self (h : Opens w path place name) (hnone : w.node? (place ++ [name]) = none) :
    w.remove path = w := by
  unfold remove
  split
  · next p hlocate =>
    have hsome := (h.locate_eq_ok_iff.mp hlocate).2
    rw [hnone] at hsome
    cases hsome
  · rfl

theorem Opens.remove_eq_erase (h : Opens w path place name) {content : Bytes}
    (hfile : w.node? (place ++ [name]) = some (.file content)) :
    w.remove path = w.erase (place ++ [name]) := by
  have hlocate := h.locate_eq_ok_iff.mpr ⟨rfl, by rw [hfile]; rfl⟩
  rw [remove, hlocate]
  simp [hfile]

end Remove

/-- Writing a file is done or fails without a trace but for directories. It is also done without a
trace if the destination has a name that is drawn. -/
theorem write_ensures (path : Text) (content : Bytes) (s : Storage) (w : Workspace) :
    Ensures (write path content s) w
      (fun _ w' => Written path content w w' ∨
        ¬DrawsBeside s path ∧ Readied (Path.ancestry (Path.directory path)) w w')
      (Readied (Path.ancestry (Path.directory path)) w) := by
  unfold write
  refine ((forM_ensureDirectory _ w).during _ _).bind ?_
  rintro _ w₁ ⟨hready, hleads⟩
  refine ((createTemporary_ensures.imp (fun _ _ h => h) fun _ h => h ▸ hready).during _ _).bind ?_
  rintro ⟨temporary, source⟩ w₂ ⟨place, name, haside, rfl, rfl⟩
  -- Until the file has moved, its removal leaves what there was without it.
  have hgone : ∀ w', Holds w₁ (place ++ [name]) w' →
      Readied (Path.ancestry (Path.directory path)) w (w'.remove temporary) := by
    intro w' hholds'
    obtain ⟨_, hfile⟩ := hholds'.file
    rw [(haside.opens.preserved hholds'.preserves).remove_eq_erase hfile]
    exact hready.trans ⟨hholds'.here, fun p => .inl (hholds'.node?_erase p)⟩
  refine .cleaning (.modify_bind ?_)
  have hpartial := (holds_put haside.free []).put (content.take s.stored)
  have hfilled := hpartial.put content
  refine .bind (during_attempt_ensures ?_) ?_
  · exact hgone _ hpartial
  rintro _ _ ⟨⟩
  refine .bind (during_attempt_ensures ?_) ?_
  · exact hgone _ hfilled
  rintro _ _ ⟨⟩
  refine .bind (during_attempt_ensures ?_) ?_
  · exact hgone _ hfilled
  rintro _ _ ⟨⟩
  refine .imp (during_attempt_ensures ?_) ?_ fun _ h => h
  · exact hgone _ hfilled
  intro _ w₃ h
  obtain ⟨_, hrename, h⟩ := bind_eq_ok h
  cases h
  have hfile : ((w₁.put (place ++ [name]) (.file [])).put (place ++ [name])
      (.file (content.take s.stored)) |>.put (place ++ [name]) (.file content)).node?
      (place ++ [name]) = some (.file content) := by
    rw [node?_put (concat_ne_nil place name), if_pos rfl]
  obtain ⟨place', name', hopens, hnot, rfl⟩ := rename_eq_ok hfile hrename
  by_cases hsource : place ++ [name] = place' ++ [name']
  · right
    constructor
    · intro hbeside
      obtain ⟨front, hfront, -⟩ := hopens.walk
      have hlast := haside.last_ne hbeside
      obtain ⟨-, hname⟩ := List.append_inj' hsource rfl
      rw [hfront, List.getLast?_concat, (List.cons.inj hname).1] at hlast
      exact hlast rfl
    · rw [← hsource]
      exact hgone _ (hfilled.replaced content)
  · left
    obtain ⟨hwritten, hkeep, hfree⟩ := hfilled.written hready hleads hopens hnot hsource
    rw [(haside.opens.preserved hkeep).remove_eq_self hfree]
    exact hwritten

end Marginalia.Workspace
