import Marginalia.Proofs.Outcome
import Marginalia.Reading.Crew
import Mathlib.Data.List.Forall2

/-!
# What a turn of a crew does

A turn moves one task one stage on, and may report a setback. A setback that comes from calling off
the work can only be reported once the work was called off, that is behind a failure that was
reported before. So the first failure is one that a source has of its own, and without a failure each
slot is filled with its own source. Every turn brings some task nearer to its end, and as long as the
work is not over some turn is possible.
-/
namespace Marginalia.Reading

section Sources
variable {w : Workspace} {web : Web} {r : Reference}

theorem fetch_of_url (h : r.origin = .url) :
    fetch w web r = (ask web r.location).bind (receive r.location) := by
  rw [fetch, h]
  rfl

theorem readOne_of_ok {content : Bytes} (h : fetch w web r = .ok content) :
    readOne w web r = decode r content := by
  rw [readOne, h]
  rfl

theorem readOne_of_error {e : ReadError} (h : fetch w web r = .error e) :
    readOne w web r = .error e := by
  rw [readOne, h]
  rfl

/-- A source that can be read is its label and the text of its content. -/
theorem readOne_eq_ok {s : Source} (h : readOne w web r = .ok s) :
    s.file = r.label ∧ ∃ content, fetch w web r = .ok content ∧ text? content = some s.content := by
  obtain ⟨content, hfetch, hdecode⟩ := bind_eq_ok h
  unfold decode at hdecode
  cases htext : text? content with
  | none =>
      rw [htext] at hdecode
      cases hdecode
  | some t =>
      rw [htext] at hdecode
      cases hdecode
      exact ⟨rfl, content, hfetch, htext⟩

end Sources

/-- How many turns a task takes from a stage on at most. -/
def Stage.rank : Stage → Nat
  | .waiting => 6
  | .fetching => 5
  | .receiving _ => 4
  | .decoding _ => 3
  | .writing _ => 2
  | .failing _ => 1
  | .finished => 0

theorem Stage.rank_after {α : Type} {next : α → Stage} {n : Nat} (h : ∀ v, (next v).rank ≤ n)
    (hn : 1 ≤ n) (x : Except ReadError α) : (Stage.after next x).rank ≤ n := by
  cases x with
  | ok v => exact h v
  | error e => exact hn

namespace Task

variable {w : Workspace} {web : Web} {off : Bool} {t t' : Task} {report? : Option Setback}

/-- What a turn can do to a task, and the setback that it reports. -/
inductive Moves (w : Workspace) (web : Web) (off : Bool) (t : Task) :
    Task → Option Setback → Prop
  | launch (hstage : t.stage = .waiting) : Moves w web off t { t with stage := .fetching } none
  | ask (hstage : t.stage = .fetching) (horigin : t.reference.origin = .url) :
      Moves w web off t
        { t with stage := .after .receiving (ask web t.reference.location) } none
  | read (hstage : t.stage = .fetching) (horigin : t.reference.origin = .file) :
      Moves w web off t { t with stage := .after .decoding (fetch w web t.reference) } none
  | receive {answer : Response} (hstage : t.stage = .receiving answer) :
      Moves w web off t
        { t with stage := .after .decoding (receive t.reference.location answer) } none
  | decode {content : Bytes} (hstage : t.stage = .decoding content) :
      Moves w web off t { t with stage := .after .writing (decode t.reference content) } none
  | write {source : Source} (hstage : t.stage = .writing source) :
      Moves w web off t { t with stage := .finished, slot := source } none
  | fail {setback : Setback} (hstage : t.stage = .failing setback) :
      Moves w web off t { t with stage := .finished } (some setback)
  | interrupt (hoff : off)
      (hstage : t.stage = .fetching ∧ t.reference.origin = .url ∨
        ∃ answer, t.stage = .receiving answer) (e : ReadError) :
      Moves w web off t { t with stage := .failing (.calledOff e) } none

theorem moves_of_proceed? (h : t.proceed? w web = some t') : Moves w web off t t' none := by
  unfold proceed? at h
  cases hstage : t.stage with
  | fetching =>
      rw [hstage] at h
      cases horigin : t.reference.origin with
      | url =>
          simp only [horigin, Option.some.injEq] at h
          exact h ▸ .ask hstage horigin
      | file =>
          simp only [horigin, Option.some.injEq] at h
          exact h ▸ .read hstage horigin
  | receiving answer =>
      simp only [hstage, Option.some.injEq] at h
      exact h ▸ .receive hstage
  | decoding content =>
      simp only [hstage, Option.some.injEq] at h
      exact h ▸ .decode hstage
  | writing source =>
      simp only [hstage, Option.some.injEq] at h
      exact h ▸ .write hstage
  | waiting => simp [hstage] at h
  | failing setback => simp [hstage] at h
  | finished => simp [hstage] at h

theorem moves_of_interrupt? {cause : Text} (hoff : off) (h : t.interrupt? cause = some t') :
    Moves w web off t t' none := by
  unfold interrupt? at h
  cases hstage : t.stage with
  | fetching =>
      cases horigin : t.reference.origin with
      | url =>
          simp only [hstage, horigin, Option.some.injEq] at h
          exact h ▸ .interrupt hoff (.inl ⟨hstage, horigin⟩) _
      | file => simp [hstage, horigin] at h
  | receiving answer =>
      simp only [hstage, Option.some.injEq] at h
      exact h ▸ .interrupt hoff (.inr ⟨answer, hstage⟩) _
  | _ => simp [hstage] at h

theorem Moves.reference_eq (h : Moves w web off t t' report?) : t'.reference = t.reference := by
  cases h <;> rfl

theorem Moves.rank_lt (h : Moves w web off t t' report?) : t'.stage.rank < t.stage.rank := by
  cases h with
  | launch hstage => rw [hstage]; exact Nat.lt_succ_self 5
  | ask hstage =>
      rw [hstage]
      exact Nat.lt_succ_of_le (Stage.rank_after (fun _ => Nat.le_refl 4) (by decide) _)
  | read hstage =>
      rw [hstage]
      exact Nat.lt_succ_of_le (Stage.rank_after (fun _ => by decide : ∀ _, 3 ≤ 4) (by decide) _)
  | receive hstage =>
      rw [hstage]
      exact Nat.lt_succ_of_le (Stage.rank_after (fun _ => Nat.le_refl 3) (by decide) _)
  | decode hstage =>
      rw [hstage]
      exact Nat.lt_succ_of_le (Stage.rank_after (fun _ => Nat.le_refl 2) (by decide) _)
  | write hstage => rw [hstage]; exact Nat.zero_lt_succ 1
  | fail hstage => rw [hstage]; exact Nat.zero_lt_succ 0
  | interrupt _ hstage =>
      obtain ⟨hfetching, -⟩ | ⟨answer, hreceiving⟩ := hstage
      · rw [hfetching]; exact (by decide : 1 < 5)
      · rw [hreceiving]; exact (by decide : 1 < 4)

/-- What is known of a task from its stage. A task that was interrupted, or is over, need not have
come through once the work was called off. -/
def Sound (w : Workspace) (web : Web) (off : Bool) (t : Task) : Prop :=
  match t.stage with
  | .waiting | .fetching => True
  | .receiving answer =>
    t.reference.origin = .url ∧ Reading.ask web t.reference.location = .ok answer
  | .decoding content => fetch w web t.reference = .ok content
  | .writing source => readOne w web t.reference = .ok source
  | .failing (.own e) => readOne w web t.reference = .error e
  | .failing (.calledOff _) => off
  | .finished => off ∨ readOne w web t.reference = .ok t.slot

theorem Sound.mono (h : t.Sound w web off) (more : Bool) : t.Sound w web (off || more) := by
  unfold Sound at h ⊢
  cases hstage : t.stage with
  | failing setback =>
      cases setback with
      | own e =>
          rw [hstage] at h
          exact h
      | calledOff e =>
          rw [hstage] at h
          exact (Bool.or_eq_true off more).mpr (.inl h)
  | finished =>
      rw [hstage] at h
      exact h.imp_left fun hoff => (Bool.or_eq_true off more).mpr (.inl hoff)
  | _ =>
      rw [hstage] at h
      exact h

/-- A step that comes through tells what the next stage has to know, and one that does not is a
failure of the source. -/
theorem sound_after {α : Type} {next : α → Stage} {x : Except ReadError α}
    (hok : ∀ v, x = .ok v → Sound w web off { t with stage := next v })
    (herror : ∀ e, x = .error e → readOne w web t.reference = .error e) :
    Sound w web off { t with stage := .after next x } := by
  cases x with
  | ok v => exact hok v rfl
  | error e => exact herror e rfl

theorem Moves.sound (h : Moves w web off t t' report?) (ht : t.Sound w web off) :
    t'.Sound w web (off || report?.isSome) := by
  cases h with
  | launch => trivial
  | ask hstage horigin =>
      refine sound_after (fun answer hask => ⟨horigin, hask⟩) fun e hask => readOne_of_error ?_
      rw [fetch_of_url horigin, hask]
      rfl
  | read => exact sound_after (fun content hfetch => hfetch) fun e hfetch => readOne_of_error hfetch
  | @receive answer hstage =>
      simp only [Sound, hstage] at ht
      have hfetch : fetch w web t.reference = Reading.receive t.reference.location answer := by
        rw [fetch_of_url ht.1, ht.2]
        rfl
      refine sound_after (fun content hreceive => hfetch.trans hreceive) fun e hreceive => ?_
      exact readOne_of_error (hfetch.trans hreceive)
  | @decode content hstage =>
      simp only [Sound, hstage] at ht
      have hread := readOne_of_ok ht
      exact sound_after (fun source hdecode => hread.trans hdecode)
        fun e hdecode => hread.trans hdecode
  | write hstage =>
      simp only [Sound, hstage] at ht
      exact .inr ht
  | fail => exact .inl (Bool.or_true off)
  | interrupt hoff =>
      subst hoff
      rfl

/-- The first setback to be reported is a failure of the source. -/
theorem Moves.own_of_report {setback : Setback} (h : Moves w web false t t' (some setback))
    (ht : t.Sound w web false) : ∃ e, setback = .own e ∧ readOne w web t.reference = .error e := by
  cases h with
  | fail hstage =>
      cases setback with
      | own e =>
          simp only [Sound, hstage] at ht
          exact ⟨e, rfl, ht⟩
      | calledOff e =>
          -- A task is interrupted only behind a failure, and there was none.
          simp [Sound, hstage] at ht

/-- A busy task that is not failing can go on. -/
theorem exists_proceed?_eq_some (h : t.isBusy) (hstage : ∀ setback, t.stage ≠ .failing setback) :
    ∃ t', t.proceed? w web = some t' := by
  unfold proceed?
  cases hcase : t.stage with
  | waiting => simp [isBusy, hcase] at h
  | finished => simp [isBusy, hcase] at h
  | failing setback => exact absurd hcase (hstage setback)
  | fetching =>
      cases horigin : t.reference.origin with
      | url =>
          simp only [horigin]
          exact ⟨_, rfl⟩
      | file =>
          simp only [horigin]
          exact ⟨_, rfl⟩
  | receiving answer => exact ⟨_, rfl⟩
  | decoding content => exact ⟨_, rfl⟩
  | writing source => exact ⟨_, rfl⟩

end Task

namespace Crew

variable {w : Workspace} {web : Web} {limit : Nat} {refs : List Reference} {c c' : Crew}
  {turn : Turn}

/-- What a turn can do: it moves one task, and what the task reports is the failure of the crew if
it is the first. A task is launched only behind tasks that were launched before, and only if one more
worker may be busy. -/
inductive Acts (limit : Nat) (w : Workspace) (web : Web) : Crew → Crew → Prop
  | move {before after : List Task} {t t' : Task} {failure? report? : Option Setback}
      (hmove : t.Moves w web failure?.isSome t' report?)
      (hlaunch : t.stage = .waiting →
        (before ++ t :: after).countP Task.isBusy < limit ∧ ∀ u ∈ before, u.stage ≠ .waiting) :
      Acts limit w web ⟨before ++ t :: after, failure?⟩
        ⟨before ++ t' :: after, failure?.or report?⟩

theorem acts_put {i : Nat} {t t' : Task} {report? : Option Setback} (hi : c.tasks[i]? = some t)
    (hmove : t.Moves w web c.isCalledOff t' report?)
    (hlaunch : t.stage = .waiting →
      c.busy < limit ∧ ∀ u ∈ c.tasks.take i, u.stage ≠ .waiting) :
    Acts limit w web c { c.put i t' with failure? := c.failure?.or report? } := by
  obtain ⟨tasks, failure?⟩ := c
  obtain ⟨hlt, rfl⟩ := List.getElem?_eq_some_iff.mp hi
  have htasks : tasks.take i ++ tasks[i] :: tasks.drop (i + 1) = tasks := by
    rw [← List.drop_eq_getElem_cons hlt, List.take_append_drop]
  have hact : Acts limit w web ⟨tasks.take i ++ tasks[i] :: tasks.drop (i + 1), failure?⟩
      ⟨tasks.take i ++ t' :: tasks.drop (i + 1), failure?.or report?⟩ :=
    .move hmove fun hwaiting => by rw [htasks]; exact hlaunch hwaiting
  rw [htasks, ← List.set_eq_take_cons_drop t' hlt] at hact
  exact hact

theorem acts_put_of_none {i : Nat} {t t' : Task} (hi : c.tasks[i]? = some t)
    (hmove : t.Moves w web c.isCalledOff t' none)
    (hlaunch : t.stage = .waiting →
      c.busy < limit ∧ ∀ u ∈ c.tasks.take i, u.stage ≠ .waiting) :
    Acts limit w web c (c.put i t') := by
  have hact := acts_put hi hmove hlaunch
  rwa [Option.or_none] at hact

/-- A turn that is possible does what a turn can do. -/
theorem acts_of_act? (h : c.act? limit w web turn = some c') : Acts limit w web c c' := by
  cases turn with
  | launch =>
      simp only [act?, launch?, Option.bind_eq_bind, Option.ite_none_right_eq_some,
        Option.bind_eq_some_iff, Option.pure_def, Option.some.injEq] at h
      obtain ⟨hbusy, i, hfind, t, ht, rfl⟩ := h
      obtain ⟨hi, hwaiting, hfirst⟩ := List.findIdx?_eq_some_iff_getElem.mp hfind
      obtain ⟨_, rfl⟩ := List.getElem?_eq_some_iff.mp ht
      refine acts_put_of_none ht (.launch (of_decide_eq_true hwaiting)) fun _ => ⟨hbusy, ?_⟩
      intro u hu
      obtain ⟨j, hj, rfl⟩ := List.mem_take_iff_getElem.mp hu
      simpa using hfirst j (by omega)
  | proceed i =>
      simp only [act?, proceed?, Option.bind_eq_bind, Option.bind_eq_some_iff] at h
      obtain ⟨t, ht, h⟩ := h
      split at h
      · next setback hstage =>
        cases h
        refine acts_put ht (.fail hstage) fun hwaiting => ?_
        rw [hstage] at hwaiting
        cases hwaiting
      · simp only [Option.bind_eq_some_iff, Option.pure_def, Option.some.injEq] at h
        obtain ⟨t', hmove, rfl⟩ := h
        refine acts_put_of_none ht (Task.moves_of_proceed? hmove) fun hwaiting => ?_
        simp [Task.proceed?, hwaiting] at hmove
  | interrupt i cause =>
      simp only [act?, interrupt?, Option.bind_eq_bind, Option.ite_none_right_eq_some,
        Option.bind_eq_some_iff, Option.pure_def, Option.some.injEq] at h
      obtain ⟨hoff, t, ht, t', hmove, rfl⟩ := h
      refine acts_put_of_none ht (Task.moves_of_interrupt? hoff hmove) fun hwaiting => ?_
      simp [Task.interrupt?, hwaiting] at hmove

/-- What is known of a crew at the sources of some references. -/
structure Sound (w : Workspace) (web : Web) (refs : List Reference) (c : Crew) : Prop where
  references : c.tasks.map Task.reference = refs
  tasks : ∀ t ∈ c.tasks, t.Sound w web c.isCalledOff
  failure : ∀ setback, c.failure? = some setback →
    ∃ r ∈ refs, ∃ e, readOne w web r = .error e ∧ setback = .own e

theorem sound_ofReferences (refs : List Reference) : (ofReferences refs).Sound w web refs := by
  constructor
  · simp [ofReferences, Function.comp_def]
  · intro t ht
    obtain ⟨r, -, rfl⟩ := List.mem_map.mp ht
    trivial
  · nofun

theorem Acts.sound (h : Acts limit w web c c') (hc : c.Sound w web refs) :
    c'.Sound w web refs := by
  cases h with
  | @move before after t t' failure? report? hmove =>
      have ht : t.Sound w web failure?.isSome := hc.tasks t (by simp)
      constructor
      · rw [← hc.references]
        simp [hmove.reference_eq]
      · intro u hu
        have hoff : (failure?.or report?).isSome = (failure?.isSome || report?.isSome) :=
          Option.isSome_or
        simp only [isCalledOff, hoff]
        rw [List.mem_append, List.mem_cons] at hu
        rcases hu with hu | rfl | hu
        · exact (hc.tasks u (by simp [hu])).mono _
        · exact hmove.sound ht
        · exact (hc.tasks u (by simp [hu])).mono _
      · intro setback hsetback
        cases failure? with
        | some first => exact hc.failure setback hsetback
        | none =>
            have hreport : report? = some setback := hsetback
            subst hreport
            obtain ⟨e, rfl, hread⟩ := hmove.own_of_report ht
            refine ⟨t.reference, ?_, e, hread, rfl⟩
            rw [← hc.references]
            simp

/-- How many turns tasks take at most. -/
def turnsLeft : List Task → Nat
  | [] => 0
  | t :: tasks => t.stage.rank + turnsLeft tasks

theorem turnsLeft_append (before after : List Task) :
    turnsLeft (before ++ after) = turnsLeft before + turnsLeft after := by
  induction before with
  | nil => exact (Nat.zero_add _).symm
  | cons t before ih =>
      rw [List.cons_append, turnsLeft, turnsLeft, ih]
      omega

theorem turnsLeft_ofReferences (refs : List Reference) :
    turnsLeft (ofReferences refs).tasks = 6 * refs.length := by
  induction refs with
  | nil => rfl
  | cons r refs ih =>
      rw [List.length_cons, Nat.mul_succ, ← ih, Nat.add_comm]
      rfl

/-- Every turn brings the work nearer to its end. -/
theorem Acts.turnsLeft_lt (h : Acts limit w web c c') : turnsLeft c'.tasks < turnsLeft c.tasks := by
  cases h with
  | move hmove =>
      have hlt := hmove.rank_lt
      simp only [turnsLeft_append, turnsLeft]
      omega

theorem exists_proceed?_eq_some {i : Nat} {t : Task} (hi : c.tasks[i]? = some t) (h : t.isBusy) :
    ∃ c', c.proceed? w web i = some c' := by
  unfold proceed?
  simp only [hi, Option.bind_eq_bind, Option.bind_some]
  split
  · exact ⟨_, rfl⟩
  · next hstage =>
    obtain ⟨t', hmove⟩ := Task.exists_proceed?_eq_some h hstage
    rw [hmove]
    exact ⟨_, rfl⟩

theorem exists_launch?_eq_some (hlimit : 0 < limit) (hidle : ∀ t ∈ c.tasks, ¬t.isBusy) {t : Task}
    (ht : t ∈ c.tasks) (hwaiting : t.stage = .waiting) : ∃ c', c.launch? limit = some c' := by
  have hbusy : c.busy = 0 := List.countP_eq_zero.mpr hidle
  have hsome : (c.tasks.findIdx? fun t => t.stage = .waiting).isSome := by
    rw [List.findIdx?_isSome, List.any_eq_true]
    exact ⟨t, ht, decide_eq_true hwaiting⟩
  obtain ⟨i, hi⟩ := Option.isSome_iff_exists.mp hsome
  obtain ⟨hlt, -⟩ := List.findIdx?_eq_some_iff_getElem.mp hi
  unfold launch?
  rw [hbusy, if_pos hlimit, hi]
  simp only [Option.bind_eq_bind, Option.bind_some, List.getElem?_eq_getElem hlt]
  exact ⟨_, rfl⟩

/-- As long as the work is not over, some turn is possible. -/
theorem exists_act?_eq_some (hlimit : 0 < limit) (h : c.outcome? = none) :
    ∃ turn c', c.act? limit w web turn = some c' := by
  by_cases hbusy : ∃ t ∈ c.tasks, t.isBusy
  · obtain ⟨t, ht, hbusy⟩ := hbusy
    obtain ⟨i, hi⟩ := List.mem_iff_getElem?.mp ht
    exact ⟨.proceed i, exists_proceed?_eq_some hi hbusy⟩
  · push Not at hbusy
    have hleft : ∃ t ∈ c.tasks, t.stage ≠ .finished := by
      by_contra hover
      push Not at hover
      have hall : c.tasks.all (·.stage = .finished) := by
        rw [List.all_eq_true]
        exact fun t ht => decide_eq_true (hover t ht)
      rw [outcome?, if_pos hall] at h
      split at h <;> cases h
    obtain ⟨t, ht, hstage⟩ := hleft
    have hwaiting : t.stage = .waiting := by
      have hidle := hbusy t ht
      by_contra hne
      exact hidle (decide_eq_true ⟨hne, hstage⟩)
    exact ⟨.launch, exists_launch?_eq_some hlimit hbusy ht hwaiting⟩

theorem failure?_of_outcome? {setback : Setback} (h : c.outcome? = some (.error setback)) :
    c.failure? = some setback := by
  unfold outcome? at h
  split at h
  · cases hfailure : c.failure? with
    | some first =>
        rw [hfailure] at h
        cases h
        rfl
    | none =>
        rw [hfailure] at h
        cases h
  · cases h

/-- What the work gives is a failure of one of the sources, or else all sources in order. -/
theorem Sound.outcome {outcome : Except Setback (List Source)} (hc : c.Sound w web refs)
    (h : c.outcome? = some outcome) :
    (∃ r ∈ refs, ∃ e, readOne w web r = .error e ∧ outcome = .error (.own e)) ∨
      ∃ sources, List.Forall₂ (fun r s => readOne w web r = .ok s) refs sources ∧
        outcome = .ok sources := by
  unfold outcome? at h
  split at h
  · next hover =>
    cases hfailure : c.failure? with
    | some setback =>
        rw [hfailure] at h
        obtain ⟨r, hr, e, hread, rfl⟩ := hc.failure setback hfailure
        cases h
        exact .inl ⟨r, hr, e, hread, rfl⟩
    | none =>
        rw [hfailure] at h
        cases h
        refine .inr ⟨_, ?_, rfl⟩
        rw [← hc.references, List.forall₂_map_left_iff, List.forall₂_map_right_iff,
          List.forall₂_same]
        intro t ht
        have hsound := hc.tasks t ht
        have hstage : t.stage = .finished := of_decide_eq_true (List.all_eq_true.mp hover t ht)
        simpa [Task.Sound, hstage, isCalledOff, hfailure] using hsound
  · cases h

end Crew

end Marginalia.Reading
