import Marginalia.Path.Clean
import Marginalia.Proofs.Text

/-!
# Clean paths

The components of a path hold no slash and are not empty, so a path that is put together from
components has just these. Cleaning a path keeps it absolute or relative, and no dot stands among
the components that are left of a path, unless nothing is left. What is left stands in the path in the
same order, so a clean path is not longer than the path, and its base is the last component that is
left.
-/
namespace Marginalia.Path

/-- What may stand between slashes. -/
structure Component (name : Text) : Prop where
  nonempty : name ≠ []
  slash_notMem : '/' ∉ name

theorem component_of_mem_names {path name : Text} (h : name ∈ names path) : Component name := by
  rw [names, List.mem_filter] at h
  exact ⟨by simpa using h.2, Text.notMem_of_mem_splitAtChar h.1⟩

section Names

theorem Component.names_eq {name : Text} (h : Component name) : names name = [name] := by
  rw [names, Text.splitAtChar_of_notMem h.slash_notMem]
  simp [h.nonempty]

variable {ns : List Text}

theorem names_join (h : ∀ n ∈ ns, Component n) : names (Text.join "/" ns) = ns := by
  cases ns with
  | nil => rfl
  | cons n ns =>
      have hsplit : Text.splitAtChar '/' (Text.join "/" (n :: ns)) = n :: ns :=
        Text.splitAtChar_join (List.cons_ne_nil n ns) fun m hm => (h m hm).slash_notMem
      rw [names, hsplit, List.filter_eq_self]
      intro m hm
      simpa using (h m hm).nonempty

theorem names_ofNames_rooted (h : ∀ n ∈ ns, Component n) : names (ofNames true ns) = ns := by
  have hnames := names_append [] (Text.join "/" ns)
  rw [names_join h] at hnames
  exact hnames

theorem names_ofNames (hne : ns ≠ []) (h : ∀ n ∈ ns, Component n) (rooted : Bool) :
    names (ofNames rooted ns) = ns := by
  cases rooted with
  | true => exact names_ofNames_rooted h
  | false =>
      rw [ofNames, if_neg Bool.false_ne_true, if_neg (by simpa using hne), names_join h]

/-- A path without components is empty or starts at the root. -/
theorem isAbsolute_of_names_eq_nil {path : Text} (h : names path = []) (hne : path ≠ []) :
    isAbsolute path = true := by
  cases path with
  | nil => exact absurd rfl hne
  | cons c cs =>
      by_contra hrel
      have hc : c ≠ '/' := by simpa [isAbsolute] using hrel
      rw [names, List.filter_eq_nil_iff, Text.splitAtChar, if_neg hc] at h
      split at h
      · exact absurd (h [c] (by simp)) (by simp)
      · next piece pieces _ => exact absurd (h (c :: piece) (by simp)) (by simp)

theorem isAbsolute_ofNames (h : ∀ n ∈ ns, Component n) (rooted : Bool) :
    isAbsolute (ofNames rooted ns) = rooted := by
  cases rooted with
  | true => rfl
  | false =>
      cases ns with
      | nil => rfl
      | cons n ns =>
          obtain ⟨hn, -⟩ := List.forall_mem_cons.mp h
          cases n with
          | nil => exact absurd rfl hn.nonempty
          | cons c cs =>
              have hc : c ≠ '/' := fun hc => hn.slash_notMem (hc ▸ List.mem_cons_self)
              have hhead : (Text.join "/" ((c :: cs) :: ns)).head? = some c := by
                cases ns <;> rfl
              change ((Text.join "/" ((c :: cs) :: ns)).head? == some '/') = false
              rw [hhead]
              simpa using hc

/-- The outermost ancestors of a path are followed by the path itself. -/
theorem exists_mem_ancestry {path : Text} (h : names path ≠ []) :
    ∃ a ∈ ancestry path, names a = names path ∧ isAbsolute a = isAbsolute path := by
  have hcomponents : ∀ n ∈ names path, Component n := fun _ => component_of_mem_names
  refine ⟨ofNames (isAbsolute path) (names path), ?_, names_ofNames h hcomponents _,
    isAbsolute_ofNames hcomponents _⟩
  rw [ancestry, List.mem_map]
  have hpos : 0 < (names path).length := List.length_pos_iff.mpr h
  refine ⟨(names path).length - 1, List.mem_range.mpr (Nat.sub_one_lt_of_lt hpos), ?_⟩
  rw [Nat.sub_add_cancel hpos, List.take_length]

end Names

section Clean
variable {rooted : Bool} {stack : List Text}

/-- The components that stand in a clean path. -/
def Kempt (stack : List Text) : Prop := ∀ n ∈ stack, Component n ∧ n ≠ here

theorem push_name {name : Text} (hne : name ≠ []) (hhere : name ≠ here) (hup : name ≠ up) :
    push rooted stack name = name :: stack := by
  unfold push
  rw [if_neg (not_or.mpr ⟨hne, hhere⟩), if_neg hup]

theorem push_up_cons (last : Text) (rest : List Text) :
    push rooted (last :: rest) up = if last = up then up :: last :: rest else rest := rfl

theorem component_up : Component up := ⟨by decide, by decide⟩

theorem kempt_push (h : Kempt stack) {name : Text} (hname : Component name) :
    Kempt (push rooted stack name) := by
  have hup : Component up ∧ up ≠ here := ⟨component_up, by decide⟩
  unfold push
  split
  · exact h
  · next hhere =>
    split
    · cases stack with
      | nil =>
          cases rooted with
          | true => exact h
          | false => exact List.forall_mem_cons.mpr ⟨hup, h⟩
      | cons last rest =>
          simp only
          split
          · exact List.forall_mem_cons.mpr ⟨hup, h⟩
          · exact (List.forall_mem_cons.mp h).2
    · exact List.forall_mem_cons.mpr ⟨⟨hname, fun heq => hhere (.inr heq)⟩, h⟩

theorem kempt_foldl_push (h : Kempt stack) {ns : List Text} (hns : ∀ n ∈ ns, Component n) :
    Kempt (ns.foldl (push rooted) stack) := by
  induction ns generalizing stack with
  | nil => exact h
  | cons n ns ih =>
      obtain ⟨hn, hns⟩ := List.forall_mem_cons.mp hns
      exact ih (kempt_push h hn) hns

theorem kempt_left (path : Text) : Kempt (left path) :=
  kempt_foldl_push (fun _ h => absurd h List.not_mem_nil) fun _ => component_of_mem_names

theorem component_of_mem_left (path : Text) : ∀ n ∈ (left path).reverse, Component n :=
  fun n h => (kempt_left path n (List.mem_reverse.mp h)).1

theorem isAbsolute_clean (path : Text) : isAbsolute (clean path) = isAbsolute path := by
  rw [clean_eq, isAbsolute_ofNames (component_of_mem_left path)]

theorem names_clean (path : Text) (h : left path ≠ []) :
    names (clean path) = (left path).reverse := by
  rw [clean_eq, names_ofNames (by simpa using h) (component_of_mem_left path)]

/-- In a relative clean path no slash follows a slash. -/
theorem nil_notMem_splitAtChar_clean {path : Text} (h : isAbsolute path = false) :
    [] ∉ Text.splitAtChar '/' (clean path) := by
  have hcomponents := component_of_mem_left path
  rw [clean_eq, h, ofNames, if_neg Bool.false_ne_true]
  split
  · decide
  · next hne =>
    have hsplit : Text.splitAtChar '/' (Text.join "/" (left path).reverse) = (left path).reverse :=
      Text.splitAtChar_join (by simpa using hne) fun n hn => (hcomponents n hn).slash_notMem
    rw [hsplit]
    exact fun hmem => (hcomponents [] hmem).nonempty rfl

theorem clean_ne_nil (path : Text) : clean path ≠ [] := by
  intro h
  have hrel := isAbsolute_clean path
  rw [h] at hrel
  have hnil := nil_notMem_splitAtChar_clean hrel.symm
  rw [h] at hnil
  exact absurd (List.mem_singleton_self []) hnil

/-- A clean path without components is the root. -/
theorem isAbsolute_of_names_clean {path : Text} (h : names (clean path) = []) :
    isAbsolute path = true := by
  rw [← isAbsolute_clean]
  exact isAbsolute_of_names_eq_nil h (clean_ne_nil path)

section Last
variable {front name : Text}

/-- The last component of a path ends the path, at its beginning or behind a slash. -/
theorem exists_ofNames_concat (rooted : Bool) (ns : List Text) (name : Text) :
    ∃ front, ofNames rooted (ns ++ [name]) = front ++ name ∧
      (front = [] ∨ front.getLast? = some '/') := by
  have hlast : ∀ ms : List Text, ms ≠ [] → (ms.flatMap (· ++ ['/'])).getLast? = some '/' := by
    intro ms hms
    rw [← List.dropLast_concat_getLast hms]
    simp
  cases rooted with
  | true =>
      refine ⟨'/' :: ns.flatMap (· ++ ['/']), ?_, .inr ?_⟩
      · rw [ofNames, if_pos rfl, List.cons_append, ← Text.join_concat]
        rfl
      · cases ns with
        | nil => rfl
        | cons n ns => rw [List.getLast?_cons, hlast _ (List.cons_ne_nil n ns), Option.getD_some]
  | false =>
      refine ⟨ns.flatMap (· ++ ['/']), ?_, ?_⟩
      · rw [ofNames, if_neg Bool.false_ne_true, if_neg (by simp), ← Text.join_concat]
        rfl
      · cases ns with
        | nil => exact .inl rfl
        | cons n ns => exact .inr (hlast _ (List.cons_ne_nil n ns))

theorem Component.getLast?_ne (h : Component name) : (front ++ name).getLast? ≠ some '/' := by
  intro hlast
  rw [List.getLast?_append, List.getLast?_eq_some_getLast h.nonempty, Option.some_or] at hlast
  exact h.slash_notMem (Option.some.inj hlast ▸ List.getLast_mem h.nonempty)

/-- What ends with a component has it as its base. -/
theorem Component.base_eq (h : Component name) (hfront : front = [] ∨ front.getLast? = some '/') :
    base (front ++ name) = name := by
  have hne : front ++ name ≠ [] := List.append_ne_nil_of_right_ne_nil _ h.nonempty
  have htrim : Text.trimEnd (· == '/') (front ++ name) = front ++ name := by
    rw [Text.trimEnd, List.dropWhile_eq_self_iff.mpr, List.reverse_reverse]
    intro hpos
    have hhead : (front ++ name).getLast? ≠ some '/' := h.getLast?_ne
    rw [← List.head?_reverse, List.head?_eq_getElem?, List.getElem?_eq_getElem hpos] at hhead
    simpa using hhead
  have htake : ((front ++ name).reverse.takeWhile (· ≠ '/')).reverse = name := by
    have hname : ∀ c ∈ name.reverse, decide (c ≠ '/') = true := by
      intro c hc
      have hc : c ∈ name := List.mem_reverse.mp hc
      simpa using fun heq : c = '/' => h.slash_notMem (heq ▸ hc)
    have hslash : front.reverse.takeWhile (· ≠ '/') = [] := by
      rcases hfront with rfl | hlast
      · rfl
      · obtain ⟨rest, rfl⟩ := List.getLast?_eq_some_iff.mp hlast
        rw [List.reverse_concat, List.takeWhile_cons_of_neg (by simp)]
    rw [List.reverse_append, List.takeWhile_append_of_pos hname, hslash, List.append_nil,
      List.reverse_reverse]
  rw [base, if_neg (by simpa using hne), htrim]
  split
  · next hnil => exact absurd hnil hne
  · exact htake

theorem clean_eq_append {path : Text} {rest : List Text} (h : left path = name :: rest) :
    ∃ front, clean path = front ++ name ∧ (front = [] ∨ front.getLast? = some '/') := by
  rw [clean_eq, h, List.reverse_cons]
  exact exists_ofNames_concat _ _ _

end Last

theorem directory_of_slash {path : Text} (h : path.getLast? = some '/') :
    directory path = clean path := by
  have hhead : path.reverse.head? = some '/' := by rw [List.head?_reverse, h]
  rw [directory]
  cases hrev : path.reverse with
  | nil =>
      rw [hrev] at hhead
      cases hhead
  | cons c cs =>
      rw [hrev] at hhead
      cases hhead
      rw [List.dropWhile_cons_of_neg (by simp), ← hrev, List.reverse_reverse]

end Clean

end Marginalia.Path
