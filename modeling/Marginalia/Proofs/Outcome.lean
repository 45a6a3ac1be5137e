import Mathlib.Data.List.Forall2

/-!
# Work that may fail

What is known of the steps of some work gives what is known of the whole: it came through if and
only if each of its steps did. Where the outcome of a work does not depend on the state it goes
through, it honors a plan without that state, and plans are put together as the work is.
-/
namespace Marginalia

variable {ε α β γ δ : Type}

theorem exists_error_iff {x : Except ε α} : (∃ e, x = .error e) ↔ ¬∃ r, x = .ok r := by
  cases x with
  | error e => exact ⟨fun _ => nofun, fun _ => ⟨e, rfl⟩⟩
  | ok r => exact ⟨nofun, fun h => absurd ⟨r, rfl⟩ h⟩

theorem bind_eq_ok {x : Except ε α} {f : α → Except ε β} {r : β}
    (h : x >>= f = .ok r) : ∃ v, x = .ok v ∧ f v = .ok r := by
  cases x with
  | error e => cases h
  | ok v => exact ⟨v, rfl, h⟩

/-- Behind work that came through, the rest goes on with what it left. -/
theorem run_bind_of_ok {σ : Type} {x : StateT σ (Except ε) α} {a b : σ} {v : α}
    (h : x.run a = .ok (v, b)) (k : α → StateT σ (Except ε) β) :
    (x >>= k).run a = (k v).run b := by
  rw [StateT.run_bind, h]
  rfl

/-- Work whose errors are put otherwise does the same. -/
theorem run_adapt {σ ε' : Type} (f : ε → ε') (x : ExceptT ε (StateM σ) α) (s : σ) :
    (x.adapt f).run.run s = ((x.run.run s).1.mapError f, (x.run.run s).2) := by
  change (Except.mapError f <$> x.run).run s = _
  rw [StateT.run_map]
  rfl

theorem exists_mapM_eq_ok_iff {f : α → Except ε β} {xs : List α} :
    (∃ vs, xs.mapM f = .ok vs) ↔ ∀ x ∈ xs, ∃ v, f x = .ok v := by
  induction xs with
  | nil => exact ⟨nofun, fun _ => ⟨[], rfl⟩⟩
  | cons x xs ih =>
      rw [List.mapM_cons, List.forall_mem_cons, ← ih]
      cases f x with
      | error e => exact ⟨nofun, nofun⟩
      | ok v =>
          cases xs.mapM f with
          | error e => exact ⟨nofun, nofun⟩
          | ok vs => exact ⟨fun _ => ⟨⟨v, rfl⟩, vs, rfl⟩, fun _ => ⟨v :: vs, rfl⟩⟩

/-- Each element of a list that corresponds to another has its partner there. -/
theorem exists_mem_zip_of_forall₂ {P : α → β → Prop} {xs : List α} {ys : List β} {x : α}
    (h : List.Forall₂ P xs ys) (hx : x ∈ xs) : ∃ y, (x, y) ∈ xs.zip ys ∧ P x y := by
  obtain ⟨hlength, hzip⟩ := List.forall₂_iff_zip.mp h
  rw [← List.map_fst_zip (Nat.le_of_eq hlength)] at hx
  obtain ⟨⟨_, y⟩, hmem, rfl⟩ := List.mem_map.mp hx
  exact ⟨y, hmem, hzip hmem⟩

theorem exists_mem_of_forall₂ {P : α → β → Prop} {xs : List α} {ys : List β} {x : α}
    (h : List.Forall₂ P xs ys) (hx : x ∈ xs) : ∃ y ∈ ys, P x y := by
  obtain ⟨y, hzip, hP⟩ := exists_mem_zip_of_forall₂ h hx
  exact ⟨y, (List.of_mem_zip hzip).2, hP⟩

theorem mapM_eq_ok_iff {f : α → Except ε β} {xs : List α} {vs : List β} :
    xs.mapM f = .ok vs ↔ List.Forall₂ (fun x v => f x = .ok v) xs vs := by
  constructor
  · intro h
    induction xs generalizing vs with
    | nil =>
        cases h
        exact .nil
    | cons x xs ih =>
        rw [List.mapM_cons] at h
        obtain ⟨v, hv, h⟩ := bind_eq_ok h
        obtain ⟨rest, hrest, h⟩ := bind_eq_ok h
        cases h
        exact .cons hv (ih hrest)
  · intro h
    induction h with
    | nil => rfl
    | cons hv _ ih =>
        rw [List.mapM_cons, hv, ih]
        rfl

/-- Work on a list fails as its first element that fails. -/
theorem mapM_eq_error_iff {f : α → Except ε β} {xs : List α} {e : ε} :
    xs.mapM f = .error e ↔ ∃ front x back, xs = front ++ x :: back ∧
      (∀ y ∈ front, ∃ v, f y = .ok v) ∧ f x = .error e := by
  constructor
  · intro h
    induction xs with
    | nil => cases h
    | cons x xs ih =>
        rw [List.mapM_cons] at h
        cases hx : f x with
        | error e' =>
            rw [hx] at h
            cases h
            exact ⟨[], x, xs, rfl, fun _ hmem => absurd hmem List.not_mem_nil, hx⟩
        | ok v =>
            have hxs : xs.mapM f = .error e := by
              rw [hx] at h
              cases hrest : xs.mapM f with
              | error e' =>
                  rw [hrest] at h
                  exact h
              | ok vs =>
                  rw [hrest] at h
                  cases h
            obtain ⟨front, y, back, rfl, hfront, hy⟩ := ih hxs
            exact ⟨x :: front, y, back, rfl, List.forall_mem_cons.mpr ⟨⟨v, hx⟩, hfront⟩, hy⟩
  · rintro ⟨front, x, back, rfl, hfront, hx⟩
    obtain ⟨vs, hvs⟩ := exists_mapM_eq_ok_iff.mpr hfront
    rw [List.mapM_append, hvs, List.mapM_cons, hx]
    rfl

/-- Some work honors a plan: it fails as the plan does, and where the plan comes through the work
does so too, with a result as promised. -/
def Honors (x : Except ε α) (plan : Except ε β) (Q : β → α → Prop) : Prop :=
  match plan with
  | .error e => x = .error e
  | .ok v => ∃ r, x = .ok r ∧ Q v r

theorem Honors.self (x : Except ε α) : Honors x x fun v r => v = r ∧ x = .ok r := by
  cases x with
  | error e => rfl
  | ok v => exact ⟨v, rfl, rfl, rfl⟩

theorem Honors.bind {x : Except ε α} {plan : Except ε β} {Q : β → α → Prop}
    (h : Honors x plan Q) {k : α → Except ε γ} {k' : β → Except ε δ} {Q' : δ → γ → Prop}
    (hk : ∀ v r, Q v r → Honors (k r) (k' v) Q') : Honors (x >>= k) (plan >>= k') Q' := by
  cases plan with
  | error e =>
      rw [show x = .error e from h]
      rfl
  | ok v =>
      obtain ⟨r, rfl, hr⟩ := h
      exact hk v r hr

theorem Honors.mapError {ε' : Type} {x : Except ε α} {plan : Except ε β} {Q : β → α → Prop}
    (h : Honors x plan Q) (g : ε → ε') : Honors (x.mapError g) (plan.mapError g) Q := by
  cases plan with
  | error e =>
      rw [show x = .error e from h]
      rfl
  | ok v =>
      obtain ⟨r, rfl, hr⟩ := h
      exact ⟨r, rfl, hr⟩

theorem Honors.map {x : Except ε α} {plan : Except ε β} {Q : β → α → Prop}
    (h : Honors x plan Q) {g : α → γ} {Q' : β → γ → Prop} (hg : ∀ v r, Q v r → Q' v (g r)) :
    Honors (x.map g) plan Q' := by
  cases plan with
  | error e =>
      rw [show x = .error e from h]
      rfl
  | ok v =>
      obtain ⟨r, rfl, hr⟩ := h
      exact ⟨g r, rfl, hg v r hr⟩

/-- Work that came through honored a plan that did. -/
theorem Honors.of_ok {x : Except ε α} {plan : Except ε β} {Q : β → α → Prop} {r : α}
    (h : Honors x plan Q) (hx : x = .ok r) : ∃ v, plan = .ok v ∧ Q v r := by
  cases plan with
  | error e =>
      rw [show x = .error e from h] at hx
      cases hx
  | ok v =>
      obtain ⟨r', rfl, hr⟩ := h
      cases hx
      exact ⟨v, rfl, hr⟩

theorem Honors.error_iff {x : Except ε α} {plan : Except ε β} {Q : β → α → Prop} {e : ε}
    (h : Honors x plan Q) : x = .error e ↔ plan = .error e := by
  cases plan with
  | error e' => rw [show x = .error e' from h, Except.error.injEq, Except.error.injEq]
  | ok v =>
      obtain ⟨r, rfl, -⟩ := h
      exact ⟨nofun, nofun⟩

theorem Honors.exists_ok_iff {x : Except ε α} {plan : Except ε β} {Q : β → α → Prop}
    (h : Honors x plan Q) : (∃ r, x = .ok r) ↔ ∃ v, plan = .ok v := by
  cases plan with
  | error e =>
      rw [show x = .error e from h]
      exact ⟨nofun, nofun⟩
  | ok v =>
      obtain ⟨r, rfl, -⟩ := h
      exact ⟨fun _ => ⟨v, rfl⟩, fun _ => ⟨r, rfl⟩⟩

end Marginalia
