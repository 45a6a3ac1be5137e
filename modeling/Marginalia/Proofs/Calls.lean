import Marginalia.Proofs.Gutter

/-!
# The calls that finish cards

Cards alone decide which calls their press is asked to answer, and in which order: for each card the
block comments, the line comments, and the code unless it is blank. Whoever answers them may fail at
any call and may remember the earlier ones. Work that makes a fixed list of calls makes all of them,
or it stops behind the first one that fails, with the error of that call. Such work is put together
as the lists of its calls are, from the call to the card and from there to all cards.
-/
namespace Marginalia

namespace Press

/-- A call of the press. -/
inductive Call where
  | render (comment : Text)
  | highlight (code : Text)
deriving DecidableEq, Repr

/-- Whoever answers calls, with a text or with an error. What is answered may depend on a state that
every call may change, a failing one too. -/
abbrev Service (σ ε : Type) := Call → σ → Except ε Text × σ

variable {σ ε α β : Type}

/-- Makes a call and writes it down. -/
def Service.ask (service : Service σ ε) (call : Call) : ExceptT ε (StateM (List Call × σ)) Text :=
  ExceptT.mk fun (made, a) => ((service call a).1, made ++ [call], (service call a).2)

/-- The press that writes down every call of a service. -/
def Service.press (service : Service σ ε) : Press (ExceptT ε (StateM (List Call × σ))) where
  render comment := service.ask (.render comment)
  highlight code := service.ask (.highlight code)

/-- Calls that were all answered, one after the other. -/
inductive Served (service : Service σ ε) : σ → List Call → List Text → σ → Prop
  | nil (a : σ) : Served service a [] [] a
  | cons {a b c : σ} {call : Call} {calls : List Call} {answer : Text} {answers : List Text} :
      service call a = (.ok answer, b) → Served service b calls answers c →
      Served service a (call :: calls) (answer :: answers) c

/-- How work with a list of calls may end. All calls are answered and the result fits the answers,
or one of them fails, and then its error is the outcome and no call was made behind it. -/
inductive Concludes (service : Service σ ε) (calls : List Call) (a : σ)
    (fits : List Text → α → Prop) : Except ε α → List Call → σ → Prop
  | completed {answers : List Text} {v : α} {b : σ} : Served service a calls answers b →
      fits answers v → Concludes service calls a fits (.ok v) calls b
  | aborted {made later : List Call} {call : Call} {answers : List Text} {e : ε} {b c : σ} :
      calls = made ++ call :: later → Served service a made answers b →
      service call b = (.error e, c) → Concludes service calls a fits (.error e) (made ++ [call]) c

/-- Work that makes a list of calls, whatever was called before. -/
def Makes (service : Service σ ε) (calls : List Call) (x : ExceptT ε (StateM (List Call × σ)) α)
    (fits : List Text → α → Prop) : Prop :=
  ∀ before a, ∃ outcome made b, x.run.run (before, a) = (outcome, before ++ made, b) ∧
    Concludes service calls a fits outcome made b

section Makes
variable {service : Service σ ε} {calls calls' : List Call} {fits : List Text → α → Prop}

theorem Served.append {a b c : σ} {answers answers' : List Text}
    (h : Served service a calls answers b) (h' : Served service b calls' answers' c) :
    Served service a (calls ++ calls') (answers ++ answers') c := by
  induction h with
  | nil a => exact h'
  | cons hcall _ ih => exact .cons hcall (ih h')

theorem Makes.pure {v : α} (h : fits [] v) :
    Makes service [] (pure v : ExceptT ε (StateM (List Call × σ)) α) fits := by
  intro before a
  refine ⟨.ok v, [], a, ?_, .completed (.nil a) h⟩
  rw [List.append_nil]
  rfl

theorem Makes.ask (service : Service σ ε) (call : Call) :
    Makes service [call] (service.ask call) fun answers answer => answers = [answer] := by
  intro before a
  refine ⟨(service call a).1, [call], (service call a).2, rfl, ?_⟩
  cases hcall : service call a with
  | mk outcome b =>
      cases outcome with
      | ok answer => exact .completed (.cons hcall (.nil b)) rfl
      | error e => exact .aborted (List.nil_append [call]).symm (.nil a) hcall

/-- What is bound to work runs in the state that the work leaves, and only if it came through. -/
theorem run_bind_of_run {x : ExceptT ε (StateM (List Call × σ)) α}
    (k : α → ExceptT ε (StateM (List Call × σ)) β) {outcome : Except ε α} {p q : List Call × σ}
    (h : x.run.run p = (outcome, q)) :
    (x >>= k).run.run p =
      outcome.casesOn (fun e => (.error e, q)) fun v => (k v).run.run q := by
  rw [ExceptT.run_bind, StateT.run_bind, h]
  cases outcome with
  | ok v => rfl
  | error e => rfl

/-- Behind work that came through, the other calls are made. Behind work that failed there are
none. -/
theorem Makes.bind {x : ExceptT ε (StateM (List Call × σ)) α}
    {k : α → ExceptT ε (StateM (List Call × σ)) β} {fits' : List Text → β → Prop}
    (hx : Makes service calls x fits)
    (hk : ∀ answers v, fits answers v →
      Makes service calls' (k v) fun more w => fits' (answers ++ more) w) :
    Makes service (calls ++ calls') (x >>= k) fits' := by
  intro before a
  obtain ⟨outcome, made, b, hrun, hend⟩ := hx before a
  rw [run_bind_of_run k hrun]
  cases hend with
  | completed hserved hfits =>
      obtain ⟨outcome', made', c, hrun', hend'⟩ := hk _ _ hfits (before ++ calls) b
      rw [List.append_assoc] at hrun'
      refine ⟨outcome', calls ++ made', c, hrun', ?_⟩
      cases hend' with
      | completed hserved' hfits' => exact .completed (hserved.append hserved') hfits'
      | aborted hcalls hserved' hcall =>
          subst hcalls
          rw [← List.append_assoc, ← List.append_assoc]
          exact .aborted rfl (hserved.append hserved') hcall
  | aborted hcalls hserved hcall =>
      subst hcalls
      exact ⟨_, _, _, rfl, .aborted (List.append_assoc ..) hserved hcall⟩

end Makes

end Press

namespace Card
open Press

/-- The calls that finish a card. Comments of one kind are joined by a blank line. -/
def calls (c : Card) : List Call :=
  .render (Text.join "\n\n" c.blockComments) :: .render (Text.join "\n\n" c.lineComments) ::
    if (joinCode c.code).isBlank then [] else [.highlight (joinCode c.code)]

/-- The answers that a finished card was made of, in the order of the calls. -/
def answersOf (f : FinishedCard) : List Text :=
  f.blockCommentHtml :: f.lineCommentHtml :: if f.hasCode then [f.codeHtml] else []

/-- What a finished card shows of its card, whatever the press answers. -/
structure FinishedAs (c : Card) (f : FinishedCard) : Prop where
  startLine : f.startLine = c.startLine
  blockComment : f.blockComment = Text.join "\n\n" c.blockComments
  lineComment : f.lineComment = Text.join "\n\n" c.lineComments
  code_eq_nil_iff : f.code = [] ↔ (joinCode c.code).isBlank
  blank : f.code = [] → f.gutter = [] ∧ f.codeHtml = []
  code : f.code ≠ [] →
    ∃ ending, c.code.flatten = f.code ++ ending ∧ (ending = [] ∨ IsLineBreak ending)
  gutter : f.code ≠ [] → Text.splitAtChar '\n' f.gutter =
    (List.range (Text.splitAtChar '\n' f.code).length).map fun k =>
      Text.ofInt (lineBelow f.startLine k)

section Finish
variable {σ ε : Type} {c : Card} {f : FinishedCard}

/-- The code of a card loses its last line end and nothing else. -/
theorem exists_flatten_eq (code : List Text) :
    ∃ ending, code.flatten = joinCode code ++ ending ∧ (ending = [] ∨ IsLineBreak ending) := by
  have hjoin : joinCode code = joinCode [code.flatten] := by simp [joinCode]
  obtain ⟨ending, hflat, hend⟩ := joinCode_singleton code.flatten
  refine ⟨ending, by rw [hjoin]; exact hflat, ?_⟩
  rcases hend with hbreak | ⟨hnil, -⟩
  · exact .inr hbreak
  · exact .inl hnil

theorem finishedAs_blank (h : (joinCode c.code).isBlank) (blockHtml lineHtml : Text) :
    c.FinishedAs { startLine := c.startLine, blockComment := joinComments c.blockComments,
                   lineComment := joinComments c.lineComments, blockCommentHtml := blockHtml,
                   lineCommentHtml := lineHtml } where
  startLine := rfl
  blockComment := rfl
  lineComment := rfl
  code_eq_nil_iff := iff_of_true rfl h
  blank := fun _ => ⟨rfl, rfl⟩
  code := fun hne => absurd rfl hne
  gutter := fun hne => absurd rfl hne

theorem finishedAs_code (h : ¬(joinCode c.code).isBlank) (blockHtml lineHtml codeHtml : Text) :
    c.FinishedAs { startLine := c.startLine, code := joinCode c.code,
                   gutter := gutter c.startLine (joinCode c.code), codeHtml,
                   blockComment := joinComments c.blockComments,
                   lineComment := joinComments c.lineComments, blockCommentHtml := blockHtml,
                   lineCommentHtml := lineHtml } := by
  have hne : joinCode c.code ≠ [] := by
    intro hnil
    rw [hnil] at h
    exact h rfl
  constructor
  · rfl
  · rfl
  · rfl
  · exact iff_of_false hne h
  · exact fun hnil => absurd hnil hne
  · exact fun _ => exists_flatten_eq c.code
  · intro _
    rw [splitAtChar_gutter, Text.length_splitAtChar]
    rfl

/-- Finishing a card makes its calls. -/
theorem finish_makes (service : Service σ ε) (c : Card) :
    Makes service c.calls (finish service.press c) fun answers f =>
      c.FinishedAs f ∧ answersOf f = answers := by
  have hcalls : c.calls = [.render (joinComments c.blockComments)] ++
      ([.render (joinComments c.lineComments)] ++
        if (joinCode c.code).isBlank then [] else [.highlight (joinCode c.code)]) := rfl
  rw [hcalls]
  unfold finish
  refine (Makes.ask service _).bind fun _ blockHtml hblock => ?_
  refine (Makes.ask service _).bind fun _ lineHtml hline => ?_
  subst hblock hline
  by_cases hb : (joinCode c.code).isBlank
  · simp only [hb, if_true]
    exact .pure ⟨finishedAs_blank hb blockHtml lineHtml, rfl⟩
  · simp only [hb, if_false, Bool.false_eq_true]
    rw [← List.append_nil [Call.highlight (joinCode c.code)]]
    refine (Makes.ask service _).bind fun _ codeHtml hcode => ?_
    subst hcode
    have hcode := finishedAs_code hb blockHtml lineHtml codeHtml
    refine .pure ⟨hcode, ?_⟩
    have hne : ¬(joinCode c.code) = [] := mt hcode.code_eq_nil_iff.mp hb
    simp [answersOf, FinishedCard.hasCode, hne]

/-- Finishing cards makes the calls of each of them, card by card. -/
theorem finishAll_makes (service : Service σ ε) (cards : List Card) :
    Makes service (cards.flatMap calls) (finishAll service.press cards) fun answers finished =>
      List.Forall₂ FinishedAs cards finished ∧ finished.flatMap answersOf = answers := by
  induction cards with
  | nil => exact .pure ⟨.nil, rfl⟩
  | cons c cards ih =>
      rw [finishAll, List.mapM_cons, List.flatMap_cons]
      refine (finish_makes service c).bind fun answers f hf => ?_
      rw [← List.append_nil (cards.flatMap calls)]
      refine ih.bind fun more finished hfinished => ?_
      refine .pure ⟨.cons hf.1 hfinished.1, ?_⟩
      rw [List.flatMap_cons, hf.2, hfinished.2, List.append_nil]

theorem filter_isBlank {t : Text} (h : t.isBlank) : t.filter (!isSpace ·) = [] := by
  rw [List.filter_eq_nil_iff]
  intro c hc
  simpa using List.all_eq_true.mp h c hc

theorem filter_lineBreak {ending : Text} (h : ending = [] ∨ IsLineBreak ending) :
    ending.filter (!isSpace ·) = [] := by
  rcases h with rfl | rfl | rfl <;> decide

/-- But for white space a finished card shows all code of its card. -/
theorem FinishedAs.filter_code (h : c.FinishedAs f) :
    f.code.filter (!isSpace ·) = c.code.flatten.filter (!isSpace ·) := by
  by_cases hnil : f.code = []
  · obtain ⟨ending, hflat, hend⟩ := exists_flatten_eq c.code
    rw [hnil, hflat, List.filter_append, filter_isBlank (h.code_eq_nil_iff.mp hnil),
      filter_lineBreak hend]
    rfl
  · obtain ⟨ending, hflat, hend⟩ := h.code hnil
    rw [hflat, List.filter_append, filter_lineBreak hend, List.append_nil]

theorem filter_flatMap_code {cards : List Card} {finished : List FinishedCard}
    (h : List.Forall₂ FinishedAs cards finished) :
    (finished.flatMap (·.code)).filter (!isSpace ·) =
      (cards.flatMap (·.code.flatten)).filter (!isSpace ·) := by
  induction h with
  | nil => rfl
  | cons hf _ ih =>
      rw [List.flatMap_cons, List.flatMap_cons, List.filter_append, List.filter_append,
        hf.filter_code, ih]

/-- Finishing cards asks for their calls, card by card and in a fixed order, and for nothing behind
the first call that fails. If one fails, its error is the outcome. Otherwise there is one finished
card for each card, made of the answers to its own calls, and no code is lost but white space. -/
theorem finishAll_calls (service : Service σ ε) (cards : List Card) (a : σ) :
    ∃ outcome made b,
      (finishAll service.press cards).run.run ([], a) = (outcome, made, b) ∧
      Concludes service (cards.flatMap calls) a
        (fun answers finished => List.Forall₂ FinishedAs cards finished ∧
          finished.flatMap answersOf = answers ∧
          (finished.flatMap (·.code)).filter (!isSpace ·) =
            (cards.flatMap (·.code.flatten)).filter (!isSpace ·))
        outcome made b := by
  obtain ⟨outcome, made, b, hrun, hend⟩ := finishAll_makes service cards [] a
  refine ⟨outcome, made, b, hrun, ?_⟩
  cases hend with
  | completed hserved hfits =>
      exact .completed hserved ⟨hfits.1, hfits.2, filter_flatMap_code hfits.1⟩
  | aborted hcalls hserved hcall => exact .aborted hcalls hserved hcall

theorem finishAll_calls_interrupted :
    let service : Service Nat Text := fun call n =>
      match call with
      | .render comment => (.ok ("<" ++ comment), n + 1)
      | .highlight code => (if code = "y" then .error "dark" else .ok ("*" ++ code), n + 1)
    let cards : List Card :=
      [{ startLine := 3, code := ["x;\r", "\n"], blockComments := ["A", "B"], lineComments := ["C"] },
        { startLine := 7, code := ["\n", "\t"], lineComments := ["D", "E"] },
        { startLine := 9, code := ["y\n"] }, { startLine := 10, code := ["z\n"] }]
    let made : List Call :=
      [.render "A\n\nB", .render "C", .highlight "x;", .render "", .render "D\n\nE", .render "",
        .render "", .highlight "y"]
    (finishAll service.press cards).run.run ([], 0) = (.error "dark", made, 8) ∧
      Concludes service (cards.flatMap calls) 0
        (fun answers finished => List.Forall₂ FinishedAs cards finished ∧
          finished.flatMap answersOf = answers ∧
          (finished.flatMap (·.code)).filter (!isSpace ·) =
            (cards.flatMap (·.code.flatten)).filter (!isSpace ·))
        (.error "dark") made 8 := by
  intro service cards made
  have hvalue : (finishAll service.press cards).run.run ([], 0) = (.error "dark", made, 8) := rfl
  obtain ⟨outcome, calls, b, hrun, hend⟩ := finishAll_calls service cards 0
  rw [hvalue] at hrun
  cases hrun
  exact ⟨hvalue, hend⟩

end Finish

end Card

end Marginalia
