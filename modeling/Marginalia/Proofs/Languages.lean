import Marginalia.Proofs.Lookup
import Marginalia.Proofs.TextOrder
import Mathlib.Data.List.Induction
import Mathlib.Data.List.TakeWhile

/-!
# Languages and the order of a mapping

A registry is made from a mapping entry by entry, and an entry takes the place of those before it
whose keys mean the same extension. So of the entries for one extension the last one counts, while
the extensions themselves do not depend on the order. The order in which a mapping is gone through
shows in the language of a file exactly if two of its keys mean the extension of that file and name
different lexers.
-/
namespace Marginalia

/-- White space around a text is removed, and nothing else if the text neither begins nor ends with
it. -/
theorem Text.trim_append {left core right : Text} (hleft : ∀ c ∈ left, isSpace c)
    (hright : ∀ c ∈ right, isSpace c) (hfirst : ∀ c ∈ core.head?, ¬isSpace c)
    (hlast : ∀ c ∈ core.getLast?, ¬isSpace c) : Text.trim (left ++ core ++ right) = core := by
  have hstart : trimStart isSpace (left ++ core ++ right) =
      if core = [] then [] else core ++ right := by
    rw [trimStart, List.append_assoc, List.dropWhile_append_of_pos hleft]
    cases core with
    | nil => exact List.dropWhile_eq_nil_iff.mpr hright
    | cons c cs => exact List.dropWhile_cons_of_neg (hfirst c rfl)
  rw [trim, hstart]
  split
  · next hnil =>
    rw [hnil]
    rfl
  · have hreverse : ∀ c ∈ right.reverse, isSpace c := fun c hc => hright c (List.mem_reverse.mp hc)
    rw [trimEnd, List.reverse_append, List.dropWhile_append_of_pos hreverse,
      List.dropWhile_eq_self_iff.mpr, List.reverse_reverse]
    intro hlength
    have hne : core ≠ [] := List.reverse_eq_nil_iff.not.mp (List.ne_nil_of_length_pos hlength)
    rw [List.getElem_zero, List.head_reverse]
    exact hlast _ (List.getLast?_eq_some_getLast hne)

namespace Registry

variable {r : Registry} {extra order : List (Text × Text)} {ext : Text}

/-- What an extension means does not depend on the white space around it, on the case of its letters or
on whether its dot is written. -/
theorem normalize_append {left core right : Text} (hleft : ∀ c ∈ left, isSpace c)
    (hright : ∀ c ∈ right, isSpace c) (hfirst : ∀ c ∈ core.head?, ¬isSpace c)
    (hlast : ∀ c ∈ core.getLast?, ¬isSpace c) :
    normalize (left ++ core ++ right) =
      if core = [] ∨ (core.map lowerChar).head? = some '.' then core.map lowerChar
      else '.' :: core.map lowerChar := by
  rw [normalize, Text.trim_append hleft hright hfirst hlast, Text.lower]
  cases core with
  | nil => rfl
  | cons c cs =>
      rw [List.map_cons]
      generalize lowerChar c = d
      by_cases hdot : d = '.'
      · rw [hdot]
        rfl
      · rw [if_neg (by simp [hdot])]
        split
        · next heq => cases heq
        · next heq =>
          cases heq
          exact absurd rfl hdot
        · rfl

/-- The language that a lexer stands for. -/
def languageOf (lexer : Text) : Language := ⟨Text.lower lexer, lexer⟩

/-- The registry with one more entry of a mapping. -/
theorem ofExtra_concat (extra : List (Text × Text)) (key lexer : Text) :
    ofExtra (extra ++ [(key, lexer)]) =
      (ofExtra extra).insert (normalize key) (languageOf lexer) := by
  rw [ofExtra, List.foldl_append]
  rfl

section Lookup

theorem lookup_insert (r : Registry) (key : Text) (l : Language) :
    (r.insert key l).byExtension.lookup ext =
      if ext = key then some l else r.byExtension.lookup ext :=
  lookup_overwrite r.byExtension key ext l

/-- An extension that no key means has its default language. -/
theorem lookup_ofExtra_of_notMem (h : ∀ entry ∈ extra, normalize entry.1 ≠ ext) :
    (ofExtra extra).byExtension.lookup ext = defaults.byExtension.lookup ext := by
  induction extra using List.reverseRecOn with
  | nil => rfl
  | append_singleton extra entry ih =>
      have hentry := h entry (List.mem_append_right _ (List.mem_singleton_self entry))
      rw [ofExtra_concat, lookup_insert, if_neg (Ne.symm hentry)]
      exact ih fun e he => h e (List.mem_append_left _ he)

/-- If all keys that mean an extension name one lexer, it is that of the extension. -/
theorem lookup_ofExtra_of_agree {lexer : Text} (hmem : ∃ entry ∈ extra, normalize entry.1 = ext)
    (h : ∀ entry ∈ extra, normalize entry.1 = ext → entry.2 = lexer) :
    (ofExtra extra).byExtension.lookup ext = some (languageOf lexer) := by
  induction extra using List.reverseRecOn with
  | nil =>
      obtain ⟨entry, hentry, -⟩ := hmem
      cases hentry
  | append_singleton extra entry ih =>
      rw [ofExtra_concat, lookup_insert]
      by_cases hlast : normalize entry.1 = ext
      · have hlexer := h entry (List.mem_append_right _ (List.mem_singleton_self entry)) hlast
        rw [if_pos hlast.symm, hlexer]
      · rw [if_neg (Ne.symm hlast)]
        refine ih ?_ fun e he => h e (List.mem_append_left _ he)
        obtain ⟨e, he, hext⟩ := hmem
        rcases List.mem_append.mp he with he | he
        · exact ⟨e, he, hext⟩
        · exact absurd (List.mem_singleton.mp he ▸ hext) hlast

end Lookup

section Extensions

theorem mem_keys_insert {key : Text} {l : Language} :
    ext ∈ (r.insert key l).byExtension.map Prod.fst ↔
      ext = key ∨ ext ∈ r.byExtension.map Prod.fst := by
  simp only [insert, List.map_cons, List.mem_cons, List.mem_map, List.mem_filter]
  constructor
  · rintro (heq | ⟨entry, ⟨hentry, -⟩, rfl⟩)
    · exact .inl heq
    · exact .inr ⟨entry, hentry, rfl⟩
  · rintro (heq | ⟨entry, hentry, rfl⟩)
    · exact .inl heq
    · by_cases heq : entry.1 = key
      · exact .inl heq
      · exact .inr ⟨entry, ⟨hentry, by simpa using heq⟩, rfl⟩

theorem nodup_keys_insert {key : Text} {l : Language} (h : (r.byExtension.map Prod.fst).Nodup) :
    ((r.insert key l).byExtension.map Prod.fst).Nodup := by
  rw [insert, List.map_cons, List.nodup_cons]
  constructor
  · intro hmem
    obtain ⟨entry, hentry, heq⟩ := List.mem_map.mp hmem
    have hne := (List.mem_filter.mp hentry).2
    simp [heq] at hne
  · exact h.sublist (List.filter_sublist.map Prod.fst)

theorem mem_keys_ofExtra : ext ∈ (ofExtra extra).byExtension.map Prod.fst ↔
    ext ∈ defaults.byExtension.map Prod.fst ∨ ∃ entry ∈ extra, normalize entry.1 = ext := by
  induction extra using List.reverseRecOn with
  | nil => simp [ofExtra]
  | append_singleton extra entry ih =>
      rw [ofExtra_concat, mem_keys_insert, ih]
      constructor
      · rintro (heq | hdefault | ⟨e, he, hext⟩)
        · exact .inr ⟨entry, List.mem_append_right _ (List.mem_singleton_self entry), heq.symm⟩
        · exact .inl hdefault
        · exact .inr ⟨e, List.mem_append_left _ he, hext⟩
      · rintro (hdefault | ⟨e, he, hext⟩)
        · exact .inr (.inl hdefault)
        · rcases List.mem_append.mp he with he | he
          · exact .inr (.inr ⟨e, he, hext⟩)
          · exact .inl (List.mem_singleton.mp he ▸ hext.symm)

theorem nodup_keys_ofExtra (extra : List (Text × Text)) :
    ((ofExtra extra).byExtension.map Prod.fst).Nodup := by
  induction extra using List.reverseRecOn with
  | nil => decide
  | append_singleton extra entry ih =>
      rw [ofExtra_concat]
      exact nodup_keys_insert ih

/-- The extensions of two registries are the same if they have the same keys. -/
theorem extensions_ofExtra_perm (h : order.Perm extra) :
    (ofExtra order).extensions = (ofExtra extra).extensions := by
  have hkeys : ((ofExtra order).byExtension.map Prod.fst).Perm
      ((ofExtra extra).byExtension.map Prod.fst) := by
    rw [List.perm_ext_iff_of_nodup (nodup_keys_ofExtra order) (nodup_keys_ofExtra extra)]
    intro ext
    rw [mem_keys_ofExtra, mem_keys_ofExtra]
    simp only [h.mem_iff]
  exact Text.eq_mergeSort Text.pairwise_mergeSort ((List.mergeSort_perm _ _).trans hkeys)

theorem pairwise_extensions_ofExtra (extra : List (Text × Text)) :
    (ofExtra extra).extensions.Pairwise (· < ·) := by
  have hnodup : (ofExtra extra).extensions.Nodup :=
    (List.mergeSort_perm _ _).nodup_iff.mpr (nodup_keys_ofExtra extra)
  have hsorted : (ofExtra extra).extensions.Pairwise (· ≤ ·) := Text.pairwise_mergeSort
  exact (hsorted.and hnodup).imp fun h => lt_of_le_of_ne h.1 h.2

end Extensions

section File
variable {file lexer : Text}

theorem forFile_of_agree
    (hmem : ∃ entry ∈ extra, normalize entry.1 = normalize (Text.extension file))
    (h : ∀ entry ∈ extra, normalize entry.1 = normalize (Text.extension file) → entry.2 = lexer) :
    (ofExtra extra).forFile file = .ok (languageOf lexer) := by
  rw [forFile, lookup_ofExtra_of_agree hmem h]

theorem forFile_of_notMem
    (h : ∀ entry ∈ extra, normalize entry.1 ≠ normalize (Text.extension file)) :
    (ofExtra extra).forFile file =
      match defaults.byExtension.lookup (normalize (Text.extension file)) with
      | some l => .ok l
      | none => .error { file, extension := normalize (Text.extension file)
                         supported := (ofExtra extra).extensions } := by
  cases hdefault : defaults.byExtension.lookup (normalize (Text.extension file)) with
  | none => simp only [forFile, lookup_ofExtra_of_notMem h, hdefault]
  | some l => simp only [forFile, lookup_ofExtra_of_notMem h, hdefault]

/-- Any entry of a mapping can come last, and then its lexer counts. -/
theorem exists_perm_forFile {entry : Text × Text} (hmem : entry ∈ extra)
    (h : normalize entry.1 = normalize (Text.extension file)) :
    ∃ order, order.Perm extra ∧ (ofExtra order).forFile file = .ok (languageOf entry.2) := by
  refine ⟨extra.erase entry ++ [entry], ?_, ?_⟩
  · exact (List.perm_append_singleton _ _).trans (List.perm_cons_erase hmem).symm
  · rw [forFile, ofExtra_concat, lookup_insert, if_pos h.symm]

/-- The order does not show in a file for whose extension all keys name one lexer. -/
theorem forFile_perm {o₁ o₂ : List (Text × Text)} (hperm : o₁.Perm o₂)
    (h : ∀ a ∈ o₁, ∀ b ∈ o₁, normalize a.1 = normalize (Text.extension file) →
      normalize b.1 = normalize (Text.extension file) → a.2 = b.2) :
    (ofExtra o₁).forFile file = (ofExtra o₂).forFile file := by
  by_cases hmem : ∃ entry ∈ o₁, normalize entry.1 = normalize (Text.extension file)
  · obtain ⟨entry, hentry, hext⟩ := hmem
    have hagree : ∀ e ∈ o₁, normalize e.1 = normalize (Text.extension file) → e.2 = entry.2 :=
      fun e he hexte => h e he entry hentry hexte hext
    rw [forFile_of_agree ⟨entry, hentry, hext⟩ hagree,
      forFile_of_agree ⟨entry, hperm.mem_iff.mp hentry, hext⟩
        fun e he => hagree e (hperm.mem_iff.mpr he)]
  · push Not at hmem
    rw [forFile_of_notMem hmem, forFile_of_notMem fun e he => hmem e (hperm.mem_iff.mpr he),
      extensions_ofExtra_perm hperm]

end File

/-- The registries of one mapping, whatever the order in which its entries come. They have the same
extensions, each once and in order: the default ones and those that the keys mean. A file has the
same outcome in all of them if and only if the keys that mean its extension name one lexer, which is
then its lexer. A file whose extension no key means has its default language or none. -/
theorem ofExtra_order (extra : List (Text × Text)) :
    (∀ order, order.Perm extra → (ofExtra order).extensions = (ofExtra extra).extensions) ∧
    (ofExtra extra).extensions.Pairwise (· < ·) ∧
    (∀ ext, ext ∈ (ofExtra extra).extensions ↔
      ext ∈ [(".js" : Text), ".sol"] ∨ ∃ entry ∈ extra, normalize entry.1 = ext) ∧
    ∀ file, let ext := normalize (Text.extension file)
      ((∀ o₁ o₂, o₁.Perm extra → o₂.Perm extra →
          (ofExtra o₁).forFile file = (ofExtra o₂).forFile file) ↔
        ∀ a ∈ extra, ∀ b ∈ extra, normalize a.1 = ext → normalize b.1 = ext → a.2 = b.2) ∧
      (∀ entry ∈ extra, normalize entry.1 = ext →
        (∀ e ∈ extra, normalize e.1 = ext → e.2 = entry.2) →
        (ofExtra extra).forFile file = .ok { name := Text.lower entry.2, lexer := entry.2 }) ∧
      ((∀ entry ∈ extra, normalize entry.1 ≠ ext) → (ofExtra extra).forFile file =
        match defaults.byExtension.lookup ext with
        | some l => .ok l
        | none => .error { file, extension := ext, supported := (ofExtra extra).extensions }) := by
  refine ⟨fun _ => extensions_ofExtra_perm, pairwise_extensions_ofExtra extra, ?_, ?_⟩
  · intro ext
    rw [extensions, List.mem_mergeSort, mem_keys_ofExtra]
    rfl
  · intro file ext
    refine ⟨⟨?_, ?_⟩, ?_, forFile_of_notMem⟩
    · intro hsame a ha b hb hexta hextb
      obtain ⟨o₁, hperm₁, hfile₁⟩ := exists_perm_forFile ha hexta
      obtain ⟨o₂, hperm₂, hfile₂⟩ := exists_perm_forFile hb hextb
      have heq := hsame o₁ o₂ hperm₁ hperm₂
      rw [hfile₁, hfile₂] at heq
      exact congrArg Language.lexer (Except.ok.inj heq)
    · intro hagree o₁ o₂ hperm₁ hperm₂
      exact forFile_perm (hperm₁.trans hperm₂.symm) fun a ha b hb =>
        hagree a (hperm₁.mem_iff.mp ha) b (hperm₁.mem_iff.mp hb)
    · intro entry hentry hext hagree
      exact forFile_of_agree ⟨entry, hentry, hext⟩ hagree

/-- Two keys that mean one extension make the language of a file depend on the order. -/
theorem ofExtra_order_shows :
    (ofExtra [("ts", "go"), ("TS", "rust")]).forFile "a.ts" = .ok ⟨"rust", "rust"⟩ ∧
      (ofExtra [("TS", "rust"), ("ts", "go")]).forFile "a.ts" = .ok ⟨"go", "go"⟩ := by
  decide +kernel

end Registry

end Marginalia
