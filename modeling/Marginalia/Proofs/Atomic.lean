import Marginalia.Proofs.Writing

/-!
# Writing is all or nothing

Whatever a storage does while a file is written, the writing is done as a whole or leaves all files as
they were. A failure keeps every node, so that every path still leads to where it led. And writing does
not fail without a reason: where no step is refused and nothing is in the way it is done.
-/
namespace Marginalia.Workspace

section Kept
variable {w w' : Workspace} {made : List Text} {path : Text} {p q : Location}

theorem Readied.enter (h : Readied made w w') {name : Text} (henter : w.enter p name = .ok q) :
    w'.enter p name = .ok q := by
  obtain ⟨hdir, henters⟩ := enter_eq_ok.mp henter
  rw [enter_eq_ok]
  constructor
  · exact h.some_eq hdir
  · cases henters with
    | here => exact .here
    | up => exact .up
    | name hhere hup hlength hsome =>
        obtain ⟨n, hn⟩ := Option.isSome_iff_exists.mp hsome
        exact .name hhere hup hlength (by rw [h.some_eq hn]; rfl)

theorem Readied.walk (h : Readied made w w') {names : List Text} (hwalk : w.walk p names = .ok q) :
    w'.walk p names = .ok q := by
  induction names generalizing p with
  | nil => exact hwalk
  | cons name names ih =>
      rw [walk_cons] at hwalk
      obtain ⟨r, henter, hrest⟩ := bind_eq_ok hwalk
      rw [walk_cons, h.enter henter]
      exact ih hrest

/-- A path leads to where it led as long as nothing is lost. -/
theorem Readied.locate (h : Readied made w w') (hlocate : w.locate path = .ok p) :
    w'.locate path = .ok p := by
  obtain ⟨hcheck, hwalk⟩ := locate_eq_ok.mp hlocate
  rw [locate_eq_ok, h.preserves.start_eq]
  exact ⟨hcheck, h.walk hwalk⟩

/-- Nothing but directories is new. -/
theorem Kept.eq_of_ne_directory (h : Kept made w w' p) {n : Node} (hn : w'.node? p = some n)
    (hne : n ≠ .directory) : w.node? p = some n := by
  rcases h with heq | ⟨-, hdir, -⟩
  · rw [← heq, hn]
  · rw [hn, Option.some.injEq] at hdir
    exact absurd hdir hne

theorem Kept.exists_made (h : Kept made w w' p) (hnone : w.node? p = none)
    (hdir : w'.node? p = some .directory) : ∃ a ∈ made, w'.locate a = .ok p := by
  rcases h with heq | ⟨-, -, hmade⟩
  · rw [heq, hnone] at hdir
    cases hdir
  · exact hmade

end Kept

/-- A destination that can be written: the directories on the way to it are there, it is something in a
directory and no directory itself, and beside it one of the drawn names is good for a file. -/
structure Receives (w : Workspace) (s : Storage) (path : Text) : Prop where
  willing : ∀ step operands, s.refuse step operands = none
  directories : ∀ a ∈ Path.ancestry (Path.directory path), w.stat a = .ok .directory
  destination : ∃ place name, w.slot path = .ok (place, name)
  notDirectory : w.isDirectory path = false
  temporary : ∃ name,
    firstFree? (w.isFree (Path.directory path)) s.draw maxDraws 0 = some name ∧
    ∃ slot, w.slot (pathIn (Path.directory path) name) = .ok slot

section Receives
variable {w w' : Workspace} {s : Storage} {path name : Text} {place : Location}

theorem Opens.slot_eq (h : Opens w path place name) : w.slot path = .ok (place, name) := by
  obtain ⟨front, hfront, hwalk⟩ := h.walk
  have hlook : w.lookInto place = .ok () := lookInto_eq_ok.mpr h.directory
  have hdots : ¬(name = Path.here ∨ name = Path.up) := not_or.mpr ⟨h.ne_here, h.ne_up⟩
  simp only [slot, h.check, hfront, List.getLast?_concat, List.dropLast_concat, hwalk, hlook,
    bind, Except.bind, if_neg hdots, if_neg (Nat.not_lt.mpr h.length)]
  rfl

theorem isDirectory_iff : w.isDirectory path = true ↔ Leads w path := by
  constructor
  · intro h
    unfold isDirectory at h
    split at h
    · next hstat => exact stat_eq_directory hstat
    · cases h
  · exact isDirectory_of_leads

/-- A new file beside a destination is not in its way. -/
theorem Holds.rename_eq {source : Location} {n : Node} (h : Holds w source w')
    (hopens : Opens w path place name) (hnot : w.isDirectory path = false)
    (hn : w'.node? source = some n) :
    w'.rename source path = .ok ((w'.erase source).put (place ++ [name]) n) := by
  have hopens' := hopens.preserved h.preserves
  have hnot' : ¬w'.isDirectory path = true := by
    rw [isDirectory_iff]
    rintro ⟨p, hlocate, hp⟩
    obtain ⟨rfl, -⟩ := hopens'.locate_eq_ok_iff.mp hlocate
    have hdir := h.directory_of hp
    have hleads : Leads w path := ⟨_, hopens.locate_eq_ok_iff.mpr ⟨rfl, by rw [hdir]; rfl⟩, hdir⟩
    rw [isDirectory_of_leads hleads] at hnot
    cases hnot
  rw [rename, if_neg hnot', hopens'.slot_eq]
  simp only [bind, Except.bind, hn]
  rfl

theorem attempt_done {α : Type} {step : WriteStep} {operands : List Text}
    {work : Workspace → Except Trouble (α × Workspace)}
    (hrefuse : s.refuse step operands = none) (hwork : ∃ r, work w = .ok r) :
    Ensures (attempt s step operands work) w (fun v w' => work w = .ok (v, w')) fun _ => False := by
  obtain ⟨r, hr⟩ := hwork
  unfold attempt
  rw [hrefuse]
  refine .get_bind ?_
  rw [hr]
  rfl

theorem forM_ensureDirectory_done {paths : List Text}
    (h : ∀ a ∈ paths, w.stat a = .ok .directory) :
    Ensures (paths.forM (ensureDirectory s)) w (fun _ w' => w' = w) fun _ => False := by
  induction paths with
  | nil => rfl
  | cons path paths ih =>
      obtain ⟨hpath, hpaths⟩ := List.forall_mem_cons.mp h
      have hhead : Ensures (ensureDirectory s path) w (fun _ w' => w' = w) fun _ => False := by
        refine .get_bind ?_
        rw [hpath]
        rfl
      refine Ensures.bind hhead ?_
      intro _ w' hsame
      rw [hsame]
      exact ih hpaths

theorem createTemporary_done (h : Receives w s path) :
    Ensures (createTemporary s path) w (fun _ _ => True) fun _ => False := by
  obtain ⟨name, hname, ⟨place, last⟩, hslot⟩ := h.temporary
  unfold createTemporary
  simp only
  refine .get_bind ?_
  rw [hname]
  refine (attempt_done (h.willing _ _) ?_).imp (fun _ _ _ => trivial) fun _ hfalse => hfalse
  rw [hslot]
  exact ⟨_, rfl⟩

/-- Where a destination can be written it is written. -/
theorem write_done (h : Receives w s path) (content : Bytes) :
    Ensures (write path content s) w (fun _ _ => True) fun _ => False := by
  obtain ⟨place, name, hslot⟩ := h.destination
  have hopens := opens_of_slot hslot
  unfold write
  refine ((forM_ensureDirectory_done h.directories).during _ _).bind ?_
  rintro _ _ rfl
  have hcreate := (createTemporary_done h).and createTemporary_ensures
  refine ((hcreate.imp (fun _ _ hmade => hmade.2) fun _ hfalse => hfalse.1).during _ _).bind ?_
  rintro ⟨temporary, source⟩ _ ⟨directory, last, haside, rfl, rfl⟩
  have hfilled := ((holds_put haside.free []).put (content.take s.stored)).put content
  obtain ⟨_, hfile⟩ := hfilled.file
  have hrename := hfilled.rename_eq hopens h.notDirectory hfile
  refine .cleaning (.modify_bind ?_)
  refine ((attempt_done (h.willing _ _) ⟨_, rfl⟩).during _ _).bind ?_
  rintro _ _ ⟨⟩
  refine ((attempt_done (h.willing _ _) ⟨_, rfl⟩).during _ _).bind ?_
  rintro _ _ ⟨⟩
  refine ((attempt_done (h.willing _ _) ⟨_, rfl⟩).during _ _).bind ?_
  rintro _ _ ⟨⟩
  refine ((attempt_done (h.willing _ _) ?_).imp (fun _ _ _ => trivial) fun _ h => h).during _ _
  rw [hrename]
  exact ⟨_, rfl⟩

end Receives

/-- Writing a file is all or nothing. The only directories that are added are that of the path and
those above it. If writing fails, every node is still there, nothing but directories is new, so that no
temporary file is left, and the path leads to where it led. If it is done, there is one place but for
which the same holds, and the path leads there and to a file with the content, provided that no
temporary file can get the name of the destination. Where nothing is in the way it is done. -/
theorem write_atomic (w : Workspace) (path : Text) (content : Bytes) (s : Storage) :
    let (outcome, w') := (write path content s).run.run w
    (∀ p, w.node? p = none → w'.node? p = some .directory →
      ∃ a ∈ Path.ancestry (Path.directory path), w'.locate a = .ok p) ∧
    (∀ e, outcome = .error e → (diagnose e).code = "WRITE_FAILED" ∧
      (∀ p n, w.node? p = some n → w'.node? p = some n) ∧
      (∀ p n, w'.node? p = some n → n ≠ .directory → w.node? p = some n) ∧
      ∀ p, w.locate path = .ok p → w'.locate path = .ok p) ∧
    (outcome = .ok () → ∃ target,
      (∀ p n, p ≠ target → w.node? p = some n → w'.node? p = some n) ∧
      (∀ p n, p ≠ target → w'.node? p = some n → n ≠ .directory → w.node? p = some n) ∧
      (DrawsBeside s path → w'.locate path = .ok target ∧ w'.read path = .ok content)) ∧
    (Receives w s path → outcome = .ok ()) := by
  have hwrite := write_ensures path content s w
  have hdone : Receives w s path → _ := fun h => write_done h content
  unfold Ensures at hwrite hdone
  generalize (write path content s).run.run w = r at hwrite hdone
  obtain ⟨e | _, w'⟩ := r
  · have hready : Readied (Path.ancestry (Path.directory path)) w w' := hwrite
    refine ⟨fun p => (hready.kept p).exists_made, fun e' he => ⟨rfl, ?_, ?_, ?_⟩, nofun, ?_⟩
    · exact fun p n => (hready.kept p).eq_of_some
    · exact fun p n => (hready.kept p).eq_of_ne_directory
    · exact fun p => hready.locate
    · exact fun h => (hdone h).elim
  · obtain hwritten | ⟨hnot, hready⟩ : Written path content w w' ∨
        ¬DrawsBeside s path ∧ Readied (Path.ancestry (Path.directory path)) w w' := hwrite
    · obtain ⟨target, htarget, hkept⟩ := hwritten.kept
      refine ⟨fun p hnone hdir => ?_, nofun,
        fun _ => ⟨target, ?_, ?_, fun _ => ⟨htarget, hwritten.read⟩⟩, fun _ => rfl⟩
      · by_cases hp : p = target
        · obtain ⟨-, q, hq, hfile⟩ := stat_eq_file (stat_of_read hwritten.read)
          cases hq.symm.trans htarget
          rw [hp, hfile] at hdir
          cases hdir
        · exact (hkept p hp).exists_made hnone hdir
      · exact fun p n hp => (hkept p hp).eq_of_some
      · exact fun p n hp => (hkept p hp).eq_of_ne_directory
    · refine ⟨fun p => (hready.kept p).exists_made, nofun,
        fun _ => ⟨[], ?_, ?_, fun hbeside => absurd hbeside hnot⟩, fun _ => rfl⟩
      · exact fun p n _ => (hready.kept p).eq_of_some
      · exact fun p n _ => (hready.kept p).eq_of_ne_directory

theorem write_atomic_new_directory :
    let w : Workspace := { nodes := [(["out"], .directory), (["out", "a.html"], .file [0x61])] }
    let s : Storage := { stored := 1, draw := (· + 7) }
    let path : Text := "out/b/c.html"
    DrawsBeside s path ∧ ∃ w', (write path [0x62, 0x63] s).run.run w = (.ok (), w') ∧
      w'.locate path = .ok ["out", "b", "c.html"] ∧ w'.read path = .ok [0x62, 0x63] ∧
      w'.node? ["out", "a.html"] = some (.file [0x61]) := by
  intro w s path
  have hlast : (Path.names path).getLast? = some ("c.html" : Text) := by decide
  have hbeside : DrawsBeside s path := drawsBeside_of_getLast? hlast (by decide)
  have houtcome : ((write path [0x62, 0x63] s).run.run w).1 = .ok () := by decide +kernel
  have hplace : ((write path [0x62, 0x63] s).run.run w).2.locate path =
      .ok ["out", "b", "c.html"] := by
    decide +kernel
  have hother : w.node? ["out", "a.html"] = some (.file [0x61]) := by decide +kernel
  clear_value w s path
  have hwrite := write_atomic w path [0x62, 0x63] s
  obtain ⟨⟨outcome, w'⟩, hr⟩ : ∃ r, (write path [0x62, 0x63] s).run.run w = r := ⟨_, rfl⟩
  rw [hr] at houtcome hplace hwrite
  obtain ⟨-, -, hdone, -⟩ := hwrite
  obtain ⟨target, hkept, -, hwritten⟩ := hdone houtcome
  obtain ⟨hlocate, hread⟩ := hwritten hbeside
  obtain rfl : target = ["out", "b", "c.html"] := Except.ok.inj (hlocate.symm.trans hplace)
  obtain rfl : outcome = .ok () := houtcome
  exact ⟨hbeside, w', hr, hlocate, hread, hkept _ _ (by decide +kernel) hother⟩

/-- A destination with the name that is drawn is removed with the temporary file. -/
example :
    let r := (write ".solcco-7.tmp" [0x61] { draw := (· + 7) }).run.run {}
    r.1 = .ok () ∧ r.2.nodes = [] := by
  decide +kernel

example :
    let w : Workspace := { nodes := [(["out"], .directory), (["out", "a.html"], .file [0x61])] }
    let s : Storage :=
      { refuse := fun step _ => if step = .fill then some .invalid else none, stored := 1 }
    let made : Location := ["out", "b"]
    ((write "out/a.html" [0x62, 0x63] s).run.run w).2.nodes = w.nodes ∧
      ((write "out/b/c.html" [0x62, 0x63] s).run.run w).2.nodes = (made, .directory) :: w.nodes := by
  decide +kernel

end Marginalia.Workspace
