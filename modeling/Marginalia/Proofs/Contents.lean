import Marginalia.Proofs.Headings
import Marginalia.Proofs.Revision
import Marginalia.Weave

/-!
# The table of contents of a document

Finishing a card enters the headings of its block comments and then those of its line comments, and
whether it comes through depends on the pen alone. Card after card and file after file, the table of
contents therefore grows by the line of each file and the headings of its cards, in the order in
which a reader of the page meets them.
-/
namespace Marginalia

open Markdown (Engine Renders)

/-- The lines of the table of contents that a finished card stands for: those of its block comments
and then those of its line comments. -/
def FinishedCard.Lists (e : Engine) (limit : Int) (f : FinishedCard) (entries : List Entry) : Prop :=
  ∃ ofBlock ofLine, Renders e limit f.blockComment f.blockCommentHtml ofBlock ∧
    Renders e limit f.lineComment f.lineCommentHtml ofLine ∧ entries = ofBlock ++ ofLine

/-- The lines of the table of contents that a woven file stands for: its own, and those of its
cards. -/
def WovenFile.Lists (e : Engine) (limit : Int) (f : WovenFile) (entries : List Entry) : Prop :=
  ∃ ofCards, List.Forall₂ (FinishedCard.Lists e limit) f.cards ofCards ∧
    entries = { title := f.file, slug := f.fileSlug, tag := "file" } :: ofCards.flatten

variable {ε : Type}

namespace Weave

variable (e : Engine) (limit : Int) (fileSlug : Text) (pen : Pen ε)

/-- A press renders every comment. -/
theorem press_render (source : Text) (a : Anchors) :
    ∃ html b entries, ((press e limit fileSlug pen).render source).run a = .ok (html, b) ∧
      Renders e limit source html entries ∧ b.entries = a.entries ++ entries :=
  Markdown.render_run e limit (fun _ _ _ => rfl) source a

theorem press_highlight (code : Text) (a : Anchors) :
    ((press e limit fileSlug pen).highlight code).run a = (pen code).map fun html => (html, a) := by
  cases h : pen code with
  | error err => simp [press, h, liftM, monadLift, MonadLift.monadLift, StateT.run_lift, Except.map]
  | ok html => simp [press, h, liftM, monadLift, MonadLift.monadLift, StateT.run_lift, Except.map]

end Weave

namespace Card

/-- The colored code of a card. Blank code is not colored. -/
def colored (pen : Pen ε) (c : Card) : Except ε Text :=
  let code := joinCode c.code
  if code.isBlank then .ok [] else pen code

/-- All that a finished card has is fixed by the card and the pen, but for its rendered comments. -/
structure Finishes (pen : Pen ε) (c : Card) (f : FinishedCard) : Prop where
  startLine : f.startLine = c.startLine
  panel : (f.code, f.gutter) = c.panel
  codeHtml : colored pen c = .ok f.codeHtml
  blockComment : f.blockComment = joinComments c.blockComments
  lineComment : f.lineComment = joinComments c.lineComments

section Finish
variable (e : Engine) (limit : Int) (fileSlug : Text) (pen : Pen ε)

/-- A card is finished if its code can be colored. -/
theorem finish_honors (c : Card) (a : Anchors) :
    Honors ((finish (Weave.press e limit fileSlug pen) c).run a) (colored pen c) fun _ (f, b) =>
      Finishes pen c f ∧ ∃ entries, f.Lists e limit entries ∧ b.entries = a.entries ++ entries := by
  obtain ⟨blockHtml, a₁, ofBlock, hblock, hblocks, hentries₁⟩ :=
    Weave.press_render e limit fileSlug pen (joinComments c.blockComments) a
  obtain ⟨lineHtml, b, ofLine, hline, hlines, hentries₂⟩ :=
    Weave.press_render e limit fileSlug pen (joinComments c.lineComments) a₁
  have hentries : b.entries = a.entries ++ (ofBlock ++ ofLine) := by
    rw [hentries₂, hentries₁, List.append_assoc]
  rw [finish, run_bind_of_ok hblock, run_bind_of_ok hline]
  by_cases hblank : (joinCode c.code).isBlank
  · have hcolored : colored pen c = .ok [] := if_pos hblank
    have hpanel : c.panel = ([], []) := if_pos hblank
    simp only [if_pos hblank, hcolored]
    exact ⟨_, rfl, ⟨rfl, hpanel.symm, hcolored, rfl, rfl⟩, _, ⟨_, _, hblocks, hlines, rfl⟩,
      hentries⟩
  · have hcolored : colored pen c = pen (joinCode c.code) := if_neg hblank
    have hpanel : c.panel = (joinCode c.code, gutter c.startLine (joinCode c.code)) := if_neg hblank
    simp only [if_neg hblank, StateT.run_bind, Weave.press_highlight]
    cases hpen : pen (joinCode c.code) with
    | error err =>
        rw [hcolored, hpen]
        rfl
    | ok codeHtml =>
        rw [hpen] at hcolored
        rw [hcolored]
        exact ⟨_, rfl, ⟨rfl, hpanel.symm, hcolored, rfl, rfl⟩, _, ⟨_, _, hblocks, hlines, rfl⟩,
          hentries⟩

/-- Cards are finished if the code of each of them can be colored. -/
theorem finishAll_honors (cards : List Card) (a : Anchors) :
    Honors ((finishAll (Weave.press e limit fileSlug pen) cards).run a) (cards.mapM (colored pen))
      fun _ (fs, b) => List.Forall₂ (Finishes pen) cards fs ∧
        ∃ entries, List.Forall₂ (FinishedCard.Lists e limit) fs entries ∧
          b.entries = a.entries ++ entries.flatten := by
  induction cards generalizing a with
  | nil => exact ⟨_, rfl, .nil, [], .nil, (List.append_nil _).symm⟩
  | cons c cards ih =>
      rw [finishAll, List.mapM_cons, List.mapM_cons, StateT.run_bind]
      refine (finish_honors e limit fileSlug pen c a).bind ?_
      rintro _ ⟨f, b⟩ ⟨hf, entries, hlists, hentries⟩
      rw [StateT.run_bind]
      refine (ih b).bind ?_
      rintro _ ⟨fs, b'⟩ ⟨hfs, later, hlater, hentries'⟩
      refine ⟨_, rfl, .cons hf hfs, entries :: later, .cons hlists hlater, ?_⟩
      rw [hentries', hentries, List.flatten_cons, List.append_assoc]

end Finish

end Card

namespace Weave

section File
variable (k : Loom ε) (o : WeaveOptions)

/-- What decides whether a file can be woven: it is scanned, and the code of its cards is colored.
Nothing of it depends on other files. -/
def draft (s : Source) : Except (WeaveFailure ε) (Language × List Segment) := do
  let (language, segments) ← (scan o.registry s).mapError .scan
  let pen := k.pen language.lexer (styleOf o)
  let _ ← ((Card.gather segments).mapM (Card.colored pen)).mapError (.coloring s.file)
  return (language, segments)

/-- A desk on which each pen is the one that the loom gives for its lexer. -/
def Desk.Proper (d : Desk ε) : Prop :=
  ∀ lexer pen, d.pens.lookup lexer = some pen → pen = k.pen lexer (styleOf o)

/-- What a woven file shows of its source. -/
structure Weaves (s : Source) (f : WovenFile) : Prop where
  file : f.file = s.file
  cards : ∃ segments, scan o.registry s = .ok (f.language, segments) ∧
    List.Forall₂ (Card.Finishes (k.pen f.language.lexer (styleOf o))) (Card.gather segments) f.cards

/-- What an event tells of a source: its language, and how many segments and cards it has. -/
def Reports (s : Source) (event : Event) : Prop :=
  ∃ language segments, scan o.registry s = .ok (language, segments) ∧
    event = { file := s.file, language, segments := segments.length,
              cards := (Card.gather segments).length }

variable {k o}

theorem Desk.pen_proper {d : Desk ε} (h : d.Proper k o) (lexer : Text) :
    (d.pen k (styleOf o) lexer).1 = k.pen lexer (styleOf o) ∧
      (d.pen k (styleOf o) lexer).2.Proper k o := by
  unfold Desk.pen
  split
  · next pen hpen => exact ⟨h lexer pen hpen, h⟩
  · refine ⟨rfl, ?_⟩
    intro lexer' pen hpen
    rw [List.lookup_cons] at hpen
    split at hpen
    · next heq =>
      cases hpen
      rw [eq_of_beq heq]
    · exact h lexer' pen hpen

/-- A file is woven as its draft says, whatever stands on the desk. -/
theorem weaveFile_honors {d : Desk ε} (h : d.Proper k o) (s : Source) :
    Honors (weaveFile k o d s) (draft k o s) fun _ (f, event, d') =>
      Weaves k o s f ∧ Reports o s event ∧ d'.Proper k o ∧
      ∃ entries, f.Lists k.markdown (levelOf o) entries ∧
        d'.anchors.entries = d.anchors.entries ++ entries := by
  unfold weaveFile draft
  refine ((Honors.self (scan o.registry s)).mapError _).bind ?_
  rintro ⟨language, segments⟩ _ ⟨rfl, hscan⟩
  obtain ⟨hpen, hproper⟩ := Desk.pen_proper h language.lexer
  simp only [hpen]
  refine ((Card.finishAll_honors _ _ _ _ _ _).mapError _).bind ?_
  rintro _ ⟨cards, b⟩ ⟨hcards, entries, hlists, hentries⟩
  refine ⟨_, rfl, ⟨rfl, segments, hscan, hcards⟩, ⟨language, segments, hscan, ?_⟩, hproper, _,
    ⟨entries, hlists, rfl⟩, ?_⟩
  · rw [hcards.length_eq]
  · simp [hentries, Anchors.enter, Tag.file]

theorem weaveFrom_cons (d : Desk ε) (s : Source) (rest : List Source) :
    (weaveFrom k o d (s :: rest)).1 = (do
      let (f, _, d) ← weaveFile k o d s
      let (files, d) ← (weaveFrom k o d rest).1
      return (f :: files, d)) := by
  rw [weaveFrom]
  cases weaveFile k o d s with
  | error e => rfl
  | ok r =>
      obtain ⟨f, event, d'⟩ := r
      change (weaveFrom k o d' rest).1.map _ = (weaveFrom k o d' rest).1 >>= _
      cases (weaveFrom k o d' rest).1 <;> rfl

/-- Files are woven if each of them can be drafted. -/
theorem weaveFrom_honors {d : Desk ε} (h : d.Proper k o) (sources : List Source) :
    Honors (weaveFrom k o d sources).1 (sources.mapM (draft k o)) fun _ (files, d') =>
      List.Forall₂ (Weaves k o) sources files ∧ d'.Proper k o ∧
      ∃ entries, List.Forall₂ (WovenFile.Lists k.markdown (levelOf o)) files entries ∧
        d'.anchors.entries = d.anchors.entries ++ entries.flatten := by
  induction sources generalizing d with
  | nil => exact ⟨_, rfl, .nil, h, [], .nil, (List.append_nil _).symm⟩
  | cons s rest ih =>
      rw [weaveFrom_cons, List.mapM_cons]
      refine (weaveFile_honors h s).bind ?_
      rintro _ ⟨f, event, d'⟩ ⟨hf, -, hproper, entries, hlists, hentries⟩
      refine (ih hproper).bind ?_
      rintro _ ⟨files, d''⟩ ⟨hfiles, hproper', later, hlater, hentries'⟩
      refine ⟨_, rfl, .cons hf hfiles, hproper', entries :: later, .cons hlists hlater, ?_⟩
      rw [hentries', hentries, List.flatten_cons, List.append_assoc]

theorem Desk.proper_empty : ({} : Desk ε).Proper k o := by
  intro lexer pen h
  cases h

theorem weaveWith_honors (sources : List Source) :
    Honors (weaveWith k o sources).1 (sources.mapM (draft k o)) fun _ document =>
      List.Forall₂ (Weaves k o) sources document.files ∧
      ∃ entries, List.Forall₂ (WovenFile.Lists k.markdown (levelOf o)) document.files entries ∧
        document.contents = entries.flatten := by
  refine (weaveFrom_honors Desk.proper_empty sources).map ?_
  rintro _ ⟨files, d⟩ ⟨hfiles, -, entries, hlists, hentries⟩
  exact ⟨hfiles, entries, hlists, hentries⟩

end File

end Weave

end Marginalia
