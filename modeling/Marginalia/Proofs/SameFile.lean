import Marginalia.Proofs.Expansion
import Marginalia.Proofs.Percent
import Marginalia.Proofs.Schedule
import Marginalia.Proofs.Writing

/-!
# The file that is read is the file that was asked for

An argument is checked as it was given and read by its clean form. Where the check succeeds both lead
to the same file, though dots, double dots and repeated slashes are followed through the tree in one
and taken out of the text in the other. No address is a clean path, so the reference that stands for
the argument among all others is one to that file.
-/
namespace Marginalia

namespace Workspace
variable {w : Workspace} {path : Text} {content : Bytes}

/-- The clean form of a path to a file leads to that file, and its base is the path's last
component. -/
theorem stat_clean (h : w.stat path = .ok (.file content)) :
    ∃ place, w.locate path = .ok place ∧ w.node? place = some (.file content) ∧
      w.locate (Path.clean path) = .ok place ∧ w.read (Path.clean path) = .ok content ∧
      (Path.names path).getLast? = some (Path.base (Path.clean path)) := by
  obtain ⟨-, place, hlocate, hplace⟩ := stat_eq_file h
  have hclean := locate_clean hlocate
  obtain ⟨name, rest, hleft, hlast⟩ := exists_left_eq_cons hlocate (by rw [hplace]; nofun)
  have hname : Path.Component name := Path.component_of_mem_names (List.mem_of_getLast? hlast)
  obtain ⟨front, heq, hfront⟩ := Path.clean_eq_append hleft
  have hslash : (Path.clean path).getLast? ≠ some '/' := by
    rw [heq]
    exact hname.getLast?_ne
  refine ⟨place, hlocate, hplace, hclean, read_of_locate hclean hplace hslash, ?_⟩
  rw [hlast, heq, hname.base_eq hfront]

theorem stat_ne_loop : w.stat path ≠ .ok .loop := by
  intro h
  obtain ⟨place, -, h⟩ := bind_eq_ok h
  split at h
  · cases h
  · cases h
  · split at h <;> cases h
  · cases h

end Workspace

namespace Reference

/-- No address is a clean path. -/
theorem not_isUrl_clean (path : Text) : ¬IsUrl (Path.clean path) := by
  have hnot : ∀ (scheme rest : Text), scheme.head? ≠ some '/' → scheme ≠ [] →
      scheme ++ '/' :: '/' :: rest ≠ Path.clean path := by
    intro scheme rest hhead hne heq
    have hrel : Path.isAbsolute path = false := by
      rw [← Path.isAbsolute_clean, ← heq]
      cases scheme with
      | nil => exact absurd rfl hne
      | cons c cs => simpa [Path.isAbsolute] using hhead
    have hnil := Path.nil_notMem_splitAtChar_clean hrel
    rw [← heq, Text.splitAtChar_append_cons] at hnil
    exact hnil (List.mem_append_right _ List.mem_cons_self)
  rintro (⟨rest, hrest⟩ | ⟨rest, hrest⟩)
  · exact hnot "http:" rest (by decide) (by decide) hrest
  · exact hnot "https:" rest (by decide) (by decide) hrest

theorem ofPath_congr {p q : Text} (h : Path.clean p = Path.clean q) : ofPath p = ofPath q := by
  unfold ofPath
  rw [h]

section Resolved
variable {t : Terrain} {exclude args : List Text} {arg path : Text} {refs : List Reference}
  {r : Reference}

/-- What stands for an argument at a clean path is the reference to that path. -/
theorem Expands.eq_ofPath (h : Expands t exclude arg refs) (hr : r ∈ refs)
    (hlocation : r.location = Path.clean path) : r = ofPath path := by
  cases h with
  | url hurl =>
      rw [List.mem_singleton.mp hr] at hlocation
      change arg = Path.clean path at hlocation
      rw [hlocation] at hurl
      exact absurd hurl (not_isUrl_clean path)
  | pattern =>
      obtain ⟨p, -, rfl⟩ := List.mem_map.mp hr
      exact ofPath_congr hlocation
  | path =>
      rw [List.mem_singleton.mp hr] at hlocation ⊢
      exact ofPath_congr hlocation

/-- A path among the arguments was found to lead to no directory, and its reference stands for it. -/
theorem ofPath_mem_of_resolveIn (h : resolveIn t exclude args = .ok refs) (harg : arg ∈ args)
    (hurl : ¬IsUrl arg) (hpattern : ¬IsPattern arg) :
    ofPath arg ∈ refs ∧ ∃ n, t.stat arg = .ok n ∧ n ≠ .directory := by
  obtain ⟨parts, hparts, rfl⟩ := resolveIn_eq_ok_iff.mp h
  obtain ⟨part, hpart, hexpands⟩ := exists_mem_of_forall₂ hparts harg
  cases hexpands with
  | url hurl' => exact absurd hurl' hurl
  | pattern _ hpattern' => exact absurd hpattern' hpattern
  | @path n _ _ hstat hfile =>
      have hmem := List.mem_flatten_of_mem hpart (List.mem_singleton_self (ofPath arg))
      obtain ⟨s, hs, hlocation⟩ := exists_mem_firsts hmem
      obtain ⟨part', hpart', hs'⟩ := List.mem_flatten.mp (mem_of_mem_firsts hs)
      obtain ⟨a, -, hexpands'⟩ := exists_mem_of_forall₂ hparts.flip hpart'
      rw [hexpands'.eq_ofPath hs' hlocation] at hs
      exact ⟨hs, n, hstat, hfile⟩

end Resolved

end Reference

namespace Reading
variable {w : Workspace} {web : Web} {r : Reference}

/-- A content means a text if it consists of the text's bytes, with a byte order mark in front or
without one, and none of the first 512 bytes of the text is null. -/
structure Means (content : Bytes) (t : Text) : Prop where
  bytes : content = [0xEF, 0xBB, 0xBF] ++ Utf8.encode t ∨
    content = Utf8.encode t ∧ ¬[0xEF, 0xBB, 0xBF] <+: content
  noNull : 0 ∉ (Utf8.encode t).take 512

theorem text?_eq_some_iff {content : Bytes} {t : Text} :
    text? content = some t ↔ Means content t := by
  have hmark : content.take 3 = byteOrderMark ↔ [0xEF, 0xBB, 0xBF] <+: content := by
    rw [List.prefix_iff_eq_take, eq_comm]
    rfl
  have htext : text? content = some t ↔
      0 ∉ (dropMark content).take 512 ∧ dropMark content = Utf8.encode t := by
    simp only [text?, List.contains_iff_mem]
    by_cases hnull : 0 ∈ (dropMark content).take inspected
    · rw [if_pos hnull]
      exact iff_of_false nofun fun h => h.1 hnull
    · rw [if_neg hnull]
      constructor
      · exact fun h => ⟨hnull, (Utf8.encode_of_decode? h).symm⟩
      · rintro ⟨-, h⟩
        rw [h, Utf8.decode?_encode]
  rw [htext, dropMark]
  split
  · next h =>
    obtain ⟨rest, rfl⟩ := hmark.mp h
    constructor
    · rintro ⟨hnull, hrest⟩
      exact ⟨.inl (by rw [← hrest]; rfl), hrest ▸ hnull⟩
    · rintro ⟨hbytes, hnull⟩
      have hrest := List.append_cancel_left (hbytes.resolve_right fun h => h.2 ⟨rest, rfl⟩)
      exact ⟨hrest ▸ hnull, hrest⟩
  · next h =>
    constructor
    · rintro ⟨hnull, hcontent⟩
      exact ⟨.inr ⟨hcontent, hmark.not.mp h⟩, hcontent ▸ hnull⟩
    · rintro ⟨hbytes, hnull⟩
      have hcontent := (hbytes.resolve_left fun hmarked => h (hmark.mpr ⟨_, hmarked.symm⟩)).1
      exact ⟨hcontent ▸ hnull, hcontent⟩

theorem download_ne_unreadable {url path : Text} {cause : FileError} :
    download web url ≠ .error (.unreadable path cause) := by
  intro h
  rw [download] at h
  cases hask : ask web url with
  | error e =>
      rw [hask] at h
      cases h
      unfold ask at hask
      split at hask
      · cases hask
      · split at hask <;> cases hask
  | ok answer =>
      rw [hask] at h
      change receive url answer = _ at h
      unfold receive at h
      split at h <;> cases h

/-- Only a file that cannot be read is reported as unreadable. -/
theorem read_of_readOne_unreadable {path : Text} {cause : FileError}
    (h : readOne w web r = .error (.unreadable path cause)) : w.read path = .error cause := by
  cases hfetch : fetch w web r with
  | ok content =>
      rw [readOne_of_ok hfetch, decode] at h
      split at h <;> cases h
  | error e =>
      rw [readOne_of_error hfetch] at h
      cases h
      unfold fetch at hfetch
      split at hfetch
      · exact absurd hfetch download_ne_unreadable
      · cases hread : w.read r.location with
        | ok content =>
            rw [hread] at hfetch
            cases hfetch
        | error e =>
            rw [hread] at hfetch
            cases hfetch
            exact hread

theorem fetch_of_read {content : Bytes} (horigin : r.origin = .file)
    (hread : w.read r.location = .ok content) : fetch w web r = .ok content := by
  rw [fetch, horigin]
  change (w.read r.location).mapError _ = _
  rw [hread]
  rfl

/-- Work in which a file can be read does not fail to open it, and gives its content at its place. -/
theorem Crew.Sound.outcome_of_read {c : Crew} {refs : List Reference} {content : Bytes}
    {outcome : Except Setback (List Source)} (hc : c.Sound w web refs)
    (h : c.outcome? = some outcome) (hr : r ∈ refs) (horigin : r.origin = .file)
    (hread : w.read r.location = .ok content) :
    (∀ cause, outcome ≠ .error (.own (.unreadable r.location cause))) ∧
      ∀ sources, outcome = .ok sources → ∃ text, Means content text ∧
        (r, { file := r.label, content := text }) ∈ refs.zip sources := by
  obtain ⟨r', hr', e, he, rfl⟩ | ⟨sources, hsources, rfl⟩ := hc.outcome h
  · refine ⟨?_, nofun⟩
    intro cause heq
    cases heq
    have herror := read_of_readOne_unreadable he
    rw [hread] at herror
    cases herror
  · refine ⟨nofun, ?_⟩
    intro sources' heq
    cases heq
    obtain ⟨s, hs, hone⟩ := exists_mem_zip_of_forall₂ hsources hr
    obtain ⟨hfile, content', hfetch, htext⟩ := readOne_eq_ok hone
    cases (fetch_of_read horigin hread).symm.trans hfetch
    refine ⟨s.content, text?_eq_some_iff.mp htext, ?_⟩
    rw [← hfile]
    exact hs

end Reading

namespace Reference
open Reading

/-- One of several references is to the file that a path leads to, by the clean form of that path and
with its last component as the label. Reading it gives the content of that file, if this is text, and
says so if it is not. However many workers read all the references in whatever order, they never fail
to open it, and what they give at its place is that content. -/
structure Covers (w : Workspace) (web : Web) (refs : List Reference) (path : Text) (place : Location)
    (content : Bytes) (r : Reference) : Prop where
  found : w.locate path = .ok place
  file : w.node? place = some (.file content)
  mem : r ∈ refs
  origin : r.origin = .file
  location : r.location = Path.clean path
  label : (Path.names path).getLast? = some r.label
  same : w.locate r.location = .ok place
  isText : ∀ text, Means content text → readOne w web r = .ok { file := r.label, content := text }
  notText : (∀ text, ¬Means content text) → readOne w web r = .error (.notText r.location)
  schedule : ∀ parallel schedule c outcome,
    (Crew.ofReferences refs).follow? (crewSize parallel) w web schedule = some c →
    c.outcome? = some outcome →
    (∀ cause, outcome ≠ .error (.own (.unreadable r.location cause))) ∧
    ∀ sources, outcome = .ok sources → ∃ text, Means content text ∧
      (r, { file := r.label, content := text }) ∈ refs.zip sources

/-- A path among arguments that can be resolved leads to a file, and to this file leads the reference
that stands for it. -/
theorem resolve_same_file {w : Workspace} {exclude args : List Text} {refs : List Reference}
    {arg : Text} (web : Web) (h : resolve w exclude args = .ok refs) (harg : arg ∈ args)
    (hurl : ¬IsUrl arg) (hpattern : ¬IsPattern arg) :
    ∃ place content r, Covers w web refs arg place content r := by
  obtain ⟨hmem, n, hstat, hfile⟩ := ofPath_mem_of_resolveIn h harg hurl hpattern
  cases n with
  | directory => exact absurd rfl hfile
  | loop => exact absurd hstat Workspace.stat_ne_loop
  | file content =>
      obtain ⟨place, hlocate, hplace, hclean, hread, hlabel⟩ := Workspace.stat_clean hstat
      have hone : readOne w web (ofPath arg) = decode (ofPath arg) content :=
        readOne_of_ok (fetch_of_read rfl hread)
      refine ⟨place, content, ofPath arg, hlocate, hplace, hmem, rfl, rfl, hlabel, hclean, ?_, ?_, ?_⟩
      · intro text htext
        rw [hone, decode, text?_eq_some_iff.mpr htext]
      · intro hnone
        have htext : text? content = none :=
          Option.eq_none_iff_forall_ne_some.mpr fun text => text?_eq_some_iff.not.mpr (hnone text)
        rw [hone, decode, htext]
      · intro parallel schedule c outcome hfollow hc
        have hsound := Crew.follow?_induction (P := Crew.Sound w web refs)
          (fun _ _ hact => hact.sound) hfollow (Crew.sound_ofReferences refs)
        exact hsound.outcome_of_read hc hmem rfl hread

theorem resolve_same_file_dotted :
    let nodes : List (Location × Node) :=
      [(["d"], .directory), (["d", "x"], .directory), (["a.sol"], .file [0xEF, 0xBB, 0xBF, 0x61])]
    let w : Workspace := { nodes, here := ["d"] }
    let web : Web := fun _ => .error "no such host"
    let arg : Text := "..//d/./x/..//../a.sol"
    let refs : List Reference := [{ origin := .file, location := "../a.sol", label := "a.sol" }]
    resolve w [] ["../*.sol", arg] = .ok refs ∧ ¬IsUrl arg ∧ ¬IsPattern arg ∧
      ∃ place content r, Covers w web refs arg place content r := by
  intro nodes w web arg refs
  have h : resolve w [] ["../*.sol", arg] = .ok refs := by decide +kernel
  have hurl : ¬IsUrl arg := isUrl_iff.not.mp (by decide)
  have hpattern : ¬IsPattern arg := isPattern_iff.not.mp (by decide)
  exact ⟨h, hurl, hpattern, resolve_same_file web h (by simp) hurl hpattern⟩

end Reference

end Marginalia
