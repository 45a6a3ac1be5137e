import Marginalia.Proofs.Contents

/-!
# Files are woven in isolation

The files of a run share their anchors and their pens. Pens are only kept so as not to make them
twice, and anchors reach nothing of a file but its slug and the anchors of its headings. A file in a
run is therefore what it is alone, but for anchors, and a run fails if and only if one of its files
fails alone: with the error of the first of them, and with an event for each file in front of it.
-/
namespace Marginalia

open Markdown (Engine)

variable {ε : Type}

/-- Finished cards that differ at most in the anchors of the headings within the limit. -/
structure FinishedCard.Same (e : Engine) (limit : Int) (f g : FinishedCard) : Prop where
  startLine : f.startLine = g.startLine
  code : f.code = g.code
  gutter : f.gutter = g.gutter
  codeHtml : f.codeHtml = g.codeHtml
  blockComment : f.blockComment = g.blockComment
  lineComment : f.lineComment = g.lineComment
  blockCommentHtml : ∃ b b', Markdown.Block.Alike limit b b' ∧
    f.blockCommentHtml = e.write f.blockComment b ∧ g.blockCommentHtml = e.write f.blockComment b'
  lineCommentHtml : ∃ b b', Markdown.Block.Alike limit b b' ∧
    f.lineCommentHtml = e.write f.lineComment b ∧ g.lineCommentHtml = e.write f.lineComment b'

/-- Woven files that differ at most in anchors. -/
structure WovenFile.Same (e : Engine) (limit : Int) (f g : WovenFile) : Prop where
  file : f.file = g.file
  language : f.language = g.language
  cards : List.Forall₂ (FinishedCard.Same e limit) f.cards g.cards

theorem Markdown.Renders.same {e : Engine} {limit : Int} {source html html' : Text}
    {entries entries' : List Entry}
    (h : Renders e limit source html entries) (h' : Renders e limit source html' entries') :
    ∃ b b', Block.Alike limit b b' ∧ html = e.write source b ∧ html' = e.write source b' := by
  obtain ⟨b, hb, hhtml, -⟩ := h.written
  obtain ⟨b', hb', hhtml', -⟩ := h'.written
  exact ⟨b, b', hb.symm.trans hb', hhtml, hhtml'⟩

theorem Card.Finishes.same {pen : Pen ε} {c : Card} {e : Engine} {limit : Int} {f g : FinishedCard}
    {entries entries' : List Entry} (hf : Finishes pen c f) (hg : Finishes pen c g)
    (hlists : f.Lists e limit entries) (hlists' : g.Lists e limit entries') : f.Same e limit g := by
  obtain ⟨_, _, hblock, hline, -⟩ := hlists
  obtain ⟨_, _, hblock', hline', -⟩ := hlists'
  have hpanel := hf.panel.trans hg.panel.symm
  have hcode : f.codeHtml = g.codeHtml := Except.ok.inj (hf.codeHtml.symm.trans hg.codeHtml)
  have hblocks := hf.blockComment.trans hg.blockComment.symm
  have hlines := hf.lineComment.trans hg.lineComment.symm
  rw [← hblocks] at hblock'
  rw [← hlines] at hline'
  exact ⟨hf.startLine.trans hg.startLine.symm, congrArg Prod.fst hpanel, congrArg Prod.snd hpanel,
    hcode, hblocks, hlines, hblock.same hblock', hline.same hline'⟩

theorem Card.forall₂_same {pen : Pen ε} {e : Engine} {limit : Int} {cards : List Card}
    {fs gs : List FinishedCard} {lists lists' : List (List Entry)}
    (hf : List.Forall₂ (Finishes pen) cards fs) (hg : List.Forall₂ (Finishes pen) cards gs)
    (hlists : List.Forall₂ (FinishedCard.Lists e limit) fs lists)
    (hlists' : List.Forall₂ (FinishedCard.Lists e limit) gs lists') :
    List.Forall₂ (FinishedCard.Same e limit) fs gs := by
  induction hf generalizing gs lists lists' with
  | nil =>
      cases hg
      exact .nil
  | cons hc _ ih =>
      cases hg with
      | cons hc' hg =>
          cases hlists with
          | cons hl hlists =>
              cases hlists' with
              | cons hl' hlists' => exact .cons (hc.same hc' hl hl') (ih hg hlists hlists')

theorem Card.mapM_colored {pen : Pen ε} {cards : List Card} {fs : List FinishedCard}
    (h : List.Forall₂ (Finishes pen) cards fs) :
    cards.mapM (colored pen) = .ok (fs.map FinishedCard.codeHtml) := by
  induction h with
  | nil => rfl
  | cons hc _ ih =>
      rw [List.mapM_cons, hc.codeHtml, ih]
      rfl

namespace Weave

variable {k : Loom ε} {o : WeaveOptions}

theorem Weaves.same {s : Source} {f g : WovenFile} {entries entries' : List Entry}
    (hf : Weaves k o s f) (hg : Weaves k o s g) (hlists : f.Lists k.markdown (levelOf o) entries)
    (hlists' : g.Lists k.markdown (levelOf o) entries') : f.Same k.markdown (levelOf o) g := by
  obtain ⟨hfile, segments, hscan, hcards⟩ := hf
  obtain ⟨hfile', segments', hscan', hcards'⟩ := hg
  obtain ⟨hlanguage, rfl⟩ : f.language = g.language ∧ segments = segments' := by
    simpa using Except.ok.inj (hscan.symm.trans hscan')
  obtain ⟨lists, hlists, -⟩ := hlists
  obtain ⟨lists', hlists', -⟩ := hlists'
  rw [← hlanguage] at hcards'
  exact ⟨hfile.trans hfile'.symm, hlanguage, Card.forall₂_same hcards hcards' hlists hlists'⟩

/-- A file comes through alone if and only if its draft does, and fails with the same error. -/
theorem weaveWith_alone_error_iff {s : Source} {e : WeaveFailure ε} :
    (weaveWith k o [s]).1 = .error e ↔ draft k o s = .error e := by
  rw [(weaveWith_honors [s]).error_iff, List.mapM_cons]
  cases draft k o s with
  | error e' =>
      change Except.error e' = .error e ↔ _
      rw [Except.error.injEq, Except.error.injEq]
  | ok v => exact ⟨nofun, nofun⟩

theorem weaveWith_eq_ok {sources : List Source} {document : Document} :
    (weaveWith k o sources).1 = .ok document ↔
      ∃ files d, (weaveFrom k o {} sources).1 = .ok (files, d) ∧
        document = { files, contents := d.anchors.entries, style := styleOf o } := by
  change (weaveFrom k o {} sources).1.map _ = _ ↔ _
  cases (weaveFrom k o {} sources).1 with
  | error e => exact ⟨nofun, nofun⟩
  | ok r =>
      refine ⟨fun h => ⟨r.1, r.2, rfl, (Except.ok.inj h).symm⟩, ?_⟩
      rintro ⟨files, d, hr, rfl⟩
      cases hr
      rfl

theorem weaveFrom_append (d : Desk ε) (front back : List Source) :
    (weaveFrom k o d (front ++ back)).1 = (do
      let (files, d) ← (weaveFrom k o d front).1
      let (files', d) ← (weaveFrom k o d back).1
      return (files ++ files', d)) := by
  induction front generalizing d with
  | nil =>
      change (weaveFrom k o d back).1 = (weaveFrom k o d back).1 >>= pure
      rw [bind_pure]
  | cons s front ih =>
      rw [List.cons_append, weaveFrom_cons, weaveFrom_cons]
      simp only [ih, bind_assoc]
      rfl

theorem exists_weaveWith_ok_iff {sources : List Source} :
    (∃ document, (weaveWith k o sources).1 = .ok document) ↔
      ∀ s ∈ sources, ∃ v, draft k o s = .ok v := by
  rw [← exists_mapM_eq_ok_iff]
  exact (weaveWith_honors sources).exists_ok_iff

theorem exists_alone_ok_iff {s : Source} :
    (∃ alone, (weaveWith k o [s]).1 = .ok alone) ↔ ∃ v, draft k o s = .ok v := by
  rw [exists_weaveWith_ok_iff, List.forall_mem_singleton]

/-- The first file that cannot be drafted ends the run with its error, behind an event for each file
in front of it. -/
theorem weaveFrom_abort {d : Desk ε} (h : d.Proper k o) {before after : List Source} {s : Source}
    {e : WeaveFailure ε} (hbefore : ∀ s' ∈ before, ∃ v, draft k o s' = .ok v)
    (hs : draft k o s = .error e) :
    ∃ events, weaveFrom k o d (before ++ s :: after) = (.error e, events) ∧
      List.Forall₂ (Reports o) before events := by
  induction before generalizing d with
  | nil =>
      refine ⟨[], ?_, .nil⟩
      have hfile := (weaveFile_honors h s).error_iff.mpr hs
      rw [List.nil_append, weaveFrom, hfile]
  | cons s' before ih =>
      obtain ⟨⟨v, hv⟩, hbefore⟩ := List.forall_mem_cons.mp hbefore
      have hfile := weaveFile_honors h s'
      rw [hv] at hfile
      obtain ⟨⟨f, event, d'⟩, hrun, -, hevent, hproper, -⟩ := hfile
      obtain ⟨events, hruns, hevents⟩ := ih hproper hbefore
      refine ⟨event :: events, ?_, .cons hevent hevents⟩
      rw [List.cons_append, weaveFrom, hrun]
      simp only [hruns]
      rfl

theorem weaveFrom_isPrefix {d d' : Desk ε} (h : d.Proper k o) {front back : List Source}
    {files : List WovenFile} (hrun : (weaveFrom k o d (front ++ back)).1 = .ok (files, d')) :
    ∃ files' d'', (weaveFrom k o d front).1 = .ok (files', d'') ∧ files' <+: files ∧
      d''.anchors.entries <+: d'.anchors.entries := by
  rw [weaveFrom_append] at hrun
  obtain ⟨⟨files', d''⟩, hfront, hrun⟩ := bind_eq_ok hrun
  obtain ⟨⟨later, _⟩, hback, hrun⟩ := bind_eq_ok hrun
  cases hrun
  obtain ⟨_, -, -, hproper, -⟩ := (weaveFrom_honors h front).of_ok hfront
  obtain ⟨_, -, -, -, entries, -, hentries⟩ := (weaveFrom_honors hproper back).of_ok hback
  exact ⟨files', d'', hfront, List.prefix_append files' later, entries.flatten, hentries.symm⟩

/-- A front of a run is woven as it is woven alone. -/
theorem weaveWith_isPrefix {front back : List Source} {document : Document}
    (h : (weaveWith k o (front ++ back)).1 = .ok document) :
    ∃ document', (weaveWith k o front).1 = .ok document' ∧
      document'.files <+: document.files ∧ document'.contents <+: document.contents := by
  obtain ⟨files, d, hrun, rfl⟩ := weaveWith_eq_ok.mp h
  obtain ⟨files', d', hrun', hfiles, hentries⟩ := weaveFrom_isPrefix Desk.proper_empty hrun
  exact ⟨_, weaveWith_eq_ok.mpr ⟨files', d', hrun', rfl⟩, hfiles, hentries⟩

theorem Weaves.exists_draft_ok {s : Source} {f : WovenFile} (h : Weaves k o s f) :
    ∃ v, draft k o s = .ok v := by
  obtain ⟨-, segments, hscan, hcards⟩ := h
  refine ⟨(f.language, segments), ?_⟩
  simp only [draft, hscan, Except.mapError, bind, Except.bind, Card.mapM_colored hcards]
  rfl

theorem Weaves.alone {s : Source} {f : WovenFile} {entries : List Entry} (h : Weaves k o s f)
    (hlists : f.Lists k.markdown (levelOf o) entries) :
    ∃ alone g, (weaveWith k o [s]).1 = .ok alone ∧ alone.files = [g] ∧ f.Same k.markdown (levelOf o) g := by
  obtain ⟨alone, halone⟩ := exists_alone_ok_iff.mpr h.exists_draft_ok
  obtain ⟨_, -, hfiles, _, hlists', -⟩ := (weaveWith_honors [s]).of_ok halone
  obtain ⟨g, files, hg, hrest, hfiles⟩ := List.forall₂_cons_left_iff.mp hfiles
  rw [List.forall₂_nil_left_iff] at hrest
  rw [hfiles, List.forall₂_cons_left_iff] at hlists'
  obtain ⟨_, _, hlists', -⟩ := hlists'
  rw [hrest] at hfiles
  exact ⟨alone, g, halone, hfiles, h.same hg hlists hlists'⟩

/-- A file in a run is what it is alone, but for anchors. -/
theorem weaveWith_alone {sources : List Source} {document : Document}
    (h : (weaveWith k o sources).1 = .ok document) :
    List.Forall₂ (fun s f => ∃ alone g, (weaveWith k o [s]).1 = .ok alone ∧ alone.files = [g] ∧
      f.Same k.markdown (levelOf o) g) sources document.files := by
  obtain ⟨_, -, hfiles, entries, hlists, -⟩ := (weaveWith_honors sources).of_ok h
  clear h
  generalize document.files = files at hfiles hlists
  induction hfiles generalizing entries with
  | nil => exact .nil
  | cons hf _ ih =>
      cases hlists with
      | cons hl hlists => exact .cons (hf.alone hl) (ih _ hlists)

end Weave

/-- The files of a run are isolated from each other, and the run aborts at the first failure. -/
theorem weaveWith_isolated (k : Loom ε) (o : WeaveOptions) :
    (∀ front back document, (weaveWith k o (front ++ back)).1 = .ok document →
      ∃ document', (weaveWith k o front).1 = .ok document' ∧
        document'.files <+: document.files ∧ document'.contents <+: document.contents) ∧
    (∀ sources document, (weaveWith k o sources).1 = .ok document →
      List.Forall₂ (fun s f => ∃ alone g, (weaveWith k o [s]).1 = .ok alone ∧ alone.files = [g] ∧
        f.Same k.markdown (Weave.levelOf o) g) sources document.files) ∧
    (∀ sources, (∃ e, (weaveWith k o sources).1 = .error e) ↔
      ∃ s ∈ sources, ∃ e, (weaveWith k o [s]).1 = .error e) ∧
    (∀ before s after e, (∀ s' ∈ before, ∃ alone, (weaveWith k o [s']).1 = .ok alone) →
      (weaveWith k o [s]).1 = .error e →
      ∃ events, weaveWith k o (before ++ s :: after) = (.error e, events) ∧
        List.Forall₂ (Weave.Reports o) before events) := by
  refine ⟨fun front back document => Weave.weaveWith_isPrefix,
    fun sources document => Weave.weaveWith_alone, ?_, ?_⟩
  · intro sources
    simp only [exists_error_iff, Weave.exists_weaveWith_ok_iff, List.forall_mem_singleton,
      not_forall, exists_prop]
  · intro before s after e hbefore hs
    have hdrafts : ∀ s' ∈ before, ∃ v, Weave.draft k o s' = .ok v := fun s' hs' =>
      Weave.exists_alone_ok_iff.mp (hbefore s' hs')
    obtain ⟨events, hrun, hevents⟩ := Weave.weaveFrom_abort Weave.Desk.proper_empty hdrafts
      (Weave.weaveWith_alone_error_iff.mp hs)
    refine ⟨events, ?_, hevents⟩
    rw [weaveWith, hrun]
    rfl

end Marginalia
