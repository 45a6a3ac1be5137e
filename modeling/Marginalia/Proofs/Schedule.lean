import Marginalia.Proofs.Crew

/-!
# Reading does not depend on the schedule

What every turn keeps is kept by a whole schedule. Whatever the order in which the workers took their
turns, the work therefore gives the same sources, or else a failure that one of the sources has of
its own. A worker who is alone reads the sources one after the other, and fails with the first that
cannot be read.
-/
namespace Marginalia.Reading

section Sources
variable {w : Workspace} {web : Web} {r : Reference}

theorem readAll_of_forall₂ {refs : List Reference} {sources : List Source}
    (h : List.Forall₂ (fun r s => readOne w web r = .ok s) refs sources) :
    readAll w web refs = .ok sources :=
  mapM_eq_ok_iff.mpr h

theorem exists_forall₂_readOne {refs : List Reference}
    (h : ∀ r ∈ refs, ∃ s, readOne w web r = .ok s) :
    ∃ sources, List.Forall₂ (fun r s => readOne w web r = .ok s) refs sources := by
  obtain ⟨sources, hsources⟩ := exists_mapM_eq_ok_iff.mpr h
  exact ⟨sources, mapM_eq_ok_iff.mp hsources⟩

/-- Sources are read up to the first that cannot be. -/
theorem readAll_eq_error {before after : List Reference} {e : ReadError}
    (hbefore : ∀ r ∈ before, ∃ s, readOne w web r = .ok s) (hr : readOne w web r = .error e) :
    readAll w web (before ++ r :: after) = .error e :=
  mapM_eq_error_iff.mpr ⟨before, r, after, rfl, hbefore, hr⟩

end Sources

namespace Crew

variable {w : Workspace} {web : Web} {limit : Nat} {refs : List Reference} {c c' : Crew}
  {turn : Turn}

section Follow
variable {schedule : List Turn}

theorem follow?_cons : c.follow? limit w web (turn :: schedule) =
    (c.act? limit w web turn).bind fun c' => c'.follow? limit w web schedule := rfl

/-- What every turn keeps is kept by a schedule. -/
theorem follow?_induction {P : Crew → Prop} (hP : ∀ c c', Acts limit w web c c' → P c → P c')
    (h : c.follow? limit w web schedule = some c') (hc : P c) : P c' := by
  induction schedule generalizing c with
  | nil =>
      cases h
      exact hc
  | cons turn schedule ih =>
      rw [follow?_cons, Option.bind_eq_some_iff] at h
      obtain ⟨mid, hturn, hrest⟩ := h
      exact ih hrest (hP c mid (acts_of_act? hturn) hc)

theorem follow?_length_le (h : c.follow? limit w web schedule = some c') :
    schedule.length + turnsLeft c'.tasks ≤ turnsLeft c.tasks := by
  induction schedule generalizing c with
  | nil =>
      cases h
      exact Nat.le_of_eq (Nat.zero_add _)
  | cons turn schedule ih =>
      rw [follow?_cons, Option.bind_eq_some_iff] at h
      obtain ⟨mid, hturn, hrest⟩ := h
      have hlt := (acts_of_act? hturn).turnsLeft_lt
      have hle := ih hrest
      rw [List.length_cons]
      omega

end Follow

section Alone

/-- Every task in front of one that was launched is over. -/
def InTurn (c : Crew) : Prop :=
  c.tasks.Pairwise fun u t => t.stage ≠ .waiting → u.stage = .finished

theorem inTurn_ofReferences (refs : List Reference) : (ofReferences refs).InTurn := by
  refine List.pairwise_map.mpr (List.pairwise_of_forall ?_)
  intro r r' hlaunched
  exact absurd rfl hlaunched

theorem Acts.inTurn (h : Acts 1 w web c c') (hc : c.InTurn) : c'.InTurn := by
  cases h with
  | @move before after t t' failure? report? hmove hlaunch =>
      obtain ⟨hbefore, hbehind, hacross⟩ := List.pairwise_append.mp hc
      obtain ⟨hafter, hlater⟩ := List.pairwise_cons.mp hbehind
      have hover : t.stage ≠ .finished := by
        intro hstage
        have hlt := hmove.rank_lt
        rw [hstage] at hlt
        exact Nat.not_lt_zero _ hlt
      have hfront : ∀ u ∈ before, u.stage = .finished := by
        intro u hu
        by_cases hwaiting : t.stage = .waiting
        · obtain ⟨hbusy, hlaunched⟩ := hlaunch hwaiting
          have hidle := List.countP_eq_zero.mp (Nat.lt_one_iff.mp hbusy) u (by simp [hu])
          by_contra hne
          exact hidle (decide_eq_true ⟨hlaunched u hu, hne⟩)
        · exact hacross u hu t List.mem_cons_self hwaiting
      refine List.pairwise_append.mpr ⟨hbefore, List.pairwise_cons.mpr ⟨?_, hlater⟩, ?_⟩
      · intro u hu hlaunched
        exact absurd (hafter u hu hlaunched) hover
      · intro u hu _ _ _
        exact hfront u hu

/-- The failure of a crew is that of reading the sources in order. -/
def FailsInOrder (w : Workspace) (web : Web) (refs : List Reference) (c : Crew) : Prop :=
  ∀ setback, c.failure? = some setback →
    ∃ e, readAll w web refs = .error e ∧ setback = .own e

theorem Acts.failsInOrder (h : Acts 1 w web c c') (hc : c.Sound w web refs) (hturn : c.InTurn)
    (hfails : c.FailsInOrder w web refs) : c'.FailsInOrder w web refs := by
  cases h with
  | @move before after t t' failure? report? hmove =>
      intro setback hsetback
      cases failure? with
      | some first => exact hfails setback hsetback
      | none =>
          -- The work was not called off, so the tasks in front of this one came through.
          have hreport : report? = some setback := hsetback
          subst hreport
          obtain ⟨e, rfl, hread⟩ := hmove.own_of_report (hc.tasks t (by simp))
          refine ⟨e, ?_, rfl⟩
          rw [← hc.references, List.map_append, List.map_cons]
          refine readAll_eq_error ?_ hread
          intro r hr
          obtain ⟨u, hu, rfl⟩ := List.mem_map.mp hr
          have hlaunched : t.stage ≠ .waiting := by
            cases hmove with
            | fail hstage => rw [hstage]; nofun
          have hover : u.stage = .finished :=
            (List.pairwise_append.mp hturn).2.2 u hu t List.mem_cons_self hlaunched
          have hsound := hc.tasks u (by simp [hu])
          refine ⟨u.slot, ?_⟩
          simpa [Task.Sound, hover, isCalledOff] using hsound

/-- A worker who is alone reads the sources in order. -/
theorem follow?_one {schedule : List Turn} {outcome : Except Setback (List Source)}
    (h : (ofReferences refs).follow? 1 w web schedule = some c) (hc : c.outcome? = some outcome) :
    outcome = (readAll w web refs).mapError .own := by
  have hkept := follow?_induction
    (P := fun c => c.Sound w web refs ∧ c.InTurn ∧ c.FailsInOrder w web refs)
    (fun c c' hact hc =>
      ⟨hact.sound hc.1, hact.inTurn hc.2.1, hact.failsInOrder hc.1 hc.2.1 hc.2.2⟩) h
    ⟨sound_ofReferences refs, inTurn_ofReferences refs, nofun⟩
  obtain ⟨hsound, -, hfails⟩ := hkept
  obtain ⟨r, hr, e, hread, rfl⟩ | ⟨sources, hsources, rfl⟩ := hsound.outcome hc
  · obtain ⟨e', hall, heq⟩ := hfails _ (failure?_of_outcome? hc)
    rw [hall, heq]
    rfl
  · rw [readAll_of_forall₂ hsources]
    rfl

end Alone

end Crew

theorem crewSize_pos (parallel : Int) : 0 < crewSize parallel := by
  unfold crewSize defaultParallel
  split
  · decide
  · omega

/-- Reading with any number of workers, along any schedule. Each schedule is finite, and one that is
not over can be gone on with. If every source can be read, all that the work can give is the list of
sources in order, each with its label and its text, which is also what reading them one by one gives.
If some source cannot be read, all that the work can give is a failure that one of the sources has of
its own. -/
theorem Crew.schedule_outcome (w : Workspace) (web : Web) (parallel : Int) (refs : List Reference)
    (schedule : List Turn) {c : Crew}
    (h : (Crew.ofReferences refs).follow? (crewSize parallel) w web schedule = some c) :
    schedule.length ≤ 6 * refs.length ∧
    (c.outcome? = none → ∃ turn c', c.act? (crewSize parallel) w web turn = some c') ∧
    ((∀ r ∈ refs, ∃ s, readOne w web r = .ok s) →
      ∃ sources, readAll w web refs = .ok sources ∧
        List.Forall₂ (fun r s => s.file = r.label ∧ ∃ content, fetch w web r = .ok content ∧
          text? content = some s.content) refs sources ∧
        ∀ outcome, c.outcome? = some outcome → outcome = .ok sources) ∧
    ((∃ r ∈ refs, ∃ e, readOne w web r = .error e) →
      ∀ outcome, c.outcome? = some outcome →
        ∃ r ∈ refs, ∃ e, readOne w web r = .error e ∧ outcome = .error (.own e)) := by
  have hsound := Crew.follow?_induction (P := Crew.Sound w web refs) (fun _ _ hact => hact.sound) h
    (Crew.sound_ofReferences refs)
  refine ⟨?_, Crew.exists_act?_eq_some (crewSize_pos parallel), ?_, ?_⟩
  · have hlength := Crew.follow?_length_le h
    rw [Crew.turnsLeft_ofReferences] at hlength
    omega
  · intro hall
    obtain ⟨sources, hsources⟩ := exists_forall₂_readOne hall
    refine ⟨sources, readAll_of_forall₂ hsources, hsources.imp fun _ _ => readOne_eq_ok, ?_⟩
    intro outcome hc
    obtain ⟨r, hr, e, hread, -⟩ | ⟨sources', hsources', rfl⟩ := hsound.outcome hc
    · obtain ⟨s, hs⟩ := hall r hr
      rw [hs] at hread
      cases hread
    · have heq := (readAll_of_forall₂ hsources).symm.trans (readAll_of_forall₂ hsources')
      rw [Except.ok.inj heq]
  · rintro ⟨r, hr, e, hread⟩ outcome hc
    obtain hfailed | ⟨sources, hsources, -⟩ := hsound.outcome hc
    · exact hfailed
    · obtain ⟨s, hs⟩ := exists_mapM_eq_ok_iff.mp ⟨sources, readAll_of_forall₂ hsources⟩ r hr
      rw [hs] at hread
      cases hread

theorem Crew.schedule_outcome_interrupted :
    let refs : List Reference :=
      [{ origin := .url, location := "https://a.test/slow.sol", label := "slow.sol" },
       { origin := .url, location := "https://a.test/gone.sol", label := "gone.sol" },
       { origin := .file, location := "b.sol", label := "b.sol" }]
    let web : Web := fun url =>
      if url = "https://a.test/slow.sol".toList then .ok { status := 200, body := [0x78] }
      else .ok { status := 404, body := [] }
    let w : Workspace := { nodes := [(["b.sol"], .file [0x79])] }
    let schedule : List Turn :=
      [.launch, .launch, .proceed 1, .proceed 0, .proceed 1, .interrupt 0 "context canceled",
       .launch, .proceed 2, .proceed 0, .proceed 2, .proceed 2]
    let failure : ReadError := .refused "https://a.test/gone.sol" 404
    let c : Crew :=
      { tasks :=
          [{ reference := refs[0], stage := .finished }, { reference := refs[1], stage := .finished },
           { reference := refs[2], stage := .finished, slot := { file := "b.sol", content := "y" } }]
        failure? := some (.own failure) }
    (Crew.ofReferences refs).follow? (crewSize 2) w web schedule = some c ∧
      c.outcome? = some (.error (.own failure)) ∧
      ∃ r ∈ refs, ∃ e, readOne w web r = .error e ∧
        (Except.error (.own failure) : Except Setback (List Source)) = .error (.own e) := by
  intro refs web w schedule failure c
  have h : (Crew.ofReferences refs).follow? (crewSize 2) w web schedule = some c := by
    decide +kernel
  have hc : c.outcome? = some (.error (.own failure)) := by decide +kernel
  have hgone : readOne w web refs[1] = .error failure := by decide +kernel
  refine ⟨h, hc, (Crew.schedule_outcome w web 2 refs schedule h).2.2.2 ?_ _ hc⟩
  exact ⟨refs[1], List.getElem_mem _, failure, hgone⟩

end Marginalia.Reading
