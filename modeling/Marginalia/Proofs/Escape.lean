import Marginalia.Proofs.Literal

/-!
# Where a string literal ends

In a string literal a backslash takes the character behind it with it, be that a quote or another
backslash. The scanner reads no such pairs: it looks at the one character in front of a quote. A
quote inside a literal has a backslash of its own in front of it, so it closes nothing either way.
The closing quote is found unless the text in front of it ends in an escaped backslash. In that case
the literal goes on to the next quote behind it that has no backslash in front of it, and if there
is none, its opening quote is a character like any other.
-/
namespace Marginalia

namespace Marker

/-- The inside of a literal between two quotes `q`: a backslash escapes the character behind it, and
no other character is a quote. -/
inductive Escaped (q : Char) : Text → Prop
  | nil : Escaped q []
  | plain {c : Char} {t : Text} : c ≠ q → c ≠ '\\' → Escaped q t → Escaped q (c :: t)
  | escape (c : Char) {t : Text} : Escaped q t → Escaped q ('\\' :: c :: t)

section Escape
variable {q before : Char} {body t v : Text}

/-- No quote inside a literal closes it, whatever stands in front of the text. -/
theorem Escaped.closingQuote_eq_none (hq : IsQuote q) (h : Escaped q body) :
    closingQuote q before body = none := by
  induction h generalizing before with
  | nil => rfl
  | plain hc _ _ ih => rw [closingQuote, if_neg fun h => hc h.1, ih, Option.map_none]
  | escape c _ ih =>
      have hslash : ¬('\\' = q ∧ before ≠ '\\') := fun h => hq.ne_backslash h.1.symm
      have hbehind : ¬(c = q ∧ '\\' ≠ '\\') := fun h => h.2 rfl
      rw [closingQuote, if_neg hslash, closingQuote, if_neg hbehind, ih]
      rfl

/-- A quote that stays open over a text is closed where it is closed behind it. -/
theorem closingQuote_append_of_none (h : closingQuote q before t = none) :
    closingQuote q before (t ++ v) =
      (closingQuote q (t.getLastD before) v).map (· + t.length) := by
  induction t generalizing before with
  | nil => simp
  | cons c cs ih =>
      rw [closingQuote] at h
      rw [List.cons_append, closingQuote]
      split at h
      · cases h
      · next hc =>
        rw [if_neg hc, ih (Option.map_eq_none_iff.mp h), Option.map_map, List.getLastD_cons,
          List.length_cons]
        rfl

theorem getLastD_eq_backslash_iff (hq : IsQuote q) :
    body.getLastD q = '\\' ↔ body.getLast? = some '\\' := by
  rw [List.getLastD_eq_getLast?]
  cases body.getLast? with
  | none => exact iff_of_false hq.ne_backslash (by simp)
  | some c => simp

/-- The length of a literal whose inside follows the rules. -/
theorem literal?_escaped (hq : IsQuote q) (hb : Escaped q body) :
    literal? (quoted q body ++ v) =
      if body.getLast? = some '\\' then (closingQuote q q v).map (· + (quoted q body).length)
      else some (quoted q body).length := by
  have hlen : (quoted q body).length = body.length + 2 := by simp [quoted]
  rw [quoted_append, literal?_cons hq, closingQuote_append_of_none (hb.closingQuote_eq_none hq),
    closingQuote, hlen]
  by_cases hlast : body.getLast? = some '\\'
  · have hopen : ¬(q = q ∧ body.getLastD q ≠ '\\') :=
      fun h => h.2 ((getLastD_eq_backslash_iff hq).mpr hlast)
    rw [if_neg hopen, if_pos hlast, Option.map_map, Option.map_map]
    congr 1
    funext n
    simp only [Function.comp]
    omega
  · have hclose : q = q ∧ body.getLastD q ≠ '\\' :=
      ⟨rfl, mt (getLastD_eq_backslash_iff hq).mp hlast⟩
    rw [if_pos hclose, if_neg hlast, Option.map_some, Option.map_some]
    congr 1
    omega

end Escape

end Marker

namespace Scanner
open Marker

/-- One step that keeps a literal as code and comes to the text behind it. -/
structure StepsOver (s : Scanner) (literal behind : Text) (t : Scanner) : Prop where
  step : s.step = .next t
  mode : t.mode = .code
  rest : t.rest = behind
  held : t.held = s.held ++ literal
  segments : t.segments = s.segments

section Escape
variable {q : Char} {body v : Text} {s : Scanner}

theorem step_of_literal? {n : Nat} (hm : s.mode.Outside) (h : literal? s.rest = some n) :
    s.step = .next ((s.keep n).enter .code) := by
  have hne : s.rest ≠ [] := by
    intro hnil
    rw [hnil] at h
    cases h
  refine step_next_iff.mpr ⟨[.keep n, .enter .code], ?_, rfl⟩
  rcases hm with hm | hm
  · rw [hm, plan, planOutside_of_ne_nil hne, h]
  · rw [hm, plan, planOutside_of_ne_nil hne, h]

/-- An opening quote that is never closed is kept like any other character. -/
theorem step_of_unclosed {t : Text} (hq : IsQuote q) (hm : s.mode.Outside) (hs : s.rest = q :: t)
    (h : literal? (q :: t) = none) : s.step = .next ((s.keep 1).enter .code) := by
  refine step_next_iff.mpr ⟨[.keep 1, .enter .code], ?_, rfl⟩
  rw [hs]
  rcases hm with hm | hm
  · rw [hm, plan, planOutside_of_ne_nil (List.cons_ne_nil q t), h]
    rcases hq with rfl | rfl <;> rfl
  · rw [hm, plan, planOutside_of_ne_nil (List.cons_ne_nil q t), h]
    rcases hq with rfl | rfl <;> rfl

/-- Behind an escaped backslash the quote does not count. -/
theorem step_escaped_backslash (hq : IsQuote q) (hb : Escaped q body) (hm : s.mode.Outside)
    (hs : s.rest = quoted q body ++ v) (hlast : body.getLast? = some '\\') :
    s.step = .next ((s.keep
      ((closingQuote q q v).elim 1 (· + (quoted q body).length))).enter .code) := by
  have hlit := literal?_escaped (v := v) hq hb
  rw [if_pos hlast] at hlit
  cases hclose : closingQuote q q v with
  | none =>
      rw [hclose, Option.map_none] at hlit
      exact step_of_unclosed hq hm hs hlit
  | some n =>
      rw [hclose, Option.map_some, ← hs] at hlit
      exact step_of_literal? hm hlit

/-- A literal is stepped over unless it ends in an escaped backslash. -/
theorem exists_stepsOver_iff (hq : IsQuote q) (hb : Escaped q body) (hm : s.mode.Outside)
    (hs : s.rest = quoted q body ++ v) :
    (∃ t, StepsOver s (quoted q body) v t) ↔ body.getLast? ≠ some '\\' := by
  constructor
  · rintro ⟨t, h⟩ hlast
    have hstep := h.step
    rw [step_escaped_backslash hq hb hm hs hlast] at hstep
    cases hstep
    have hlen := congrArg List.length h.held
    have htwo : 2 < (quoted q body).length := by
      have hpos := List.length_pos_of_mem (List.mem_of_getLast? hlast)
      simp [quoted]
      omega
    rw [enter_held, keep_held, List.length_append, List.length_append, List.length_take, hs,
      List.length_append] at hlen
    cases hclose : closingQuote q q v with
    | none =>
        rw [hclose, Option.elim_none] at hlen
        omega
    | some n =>
        have hpos := closingQuote_pos hclose
        have hle := closingQuote_le hclose
        rw [hclose, Option.elim_some] at hlen
        omega
  · intro hlast
    have hlit := literal?_escaped (v := v) hq hb
    rw [if_neg hlast, ← hs] at hlit
    refine ⟨_, step_of_literal? hm hlit, rfl, ?_, ?_, ?_⟩
    · rw [enter_rest, keep_rest, hs, List.drop_left]
    · rw [enter_held, keep_held, hs, List.take_left]
    · rw [enter_segments, keep_segments]

end Escape

end Scanner

namespace Segment
open Marker Scanner

/-- A run that comes to a literal goes on behind its closing quote, with the literal kept as code,
if and only if the inside of the literal does not end in an escaped backslash. Behind one the
literal is taken to go on to the first quote further down that has no backslash in front of it, or
not to be a literal at all. -/
theorem reaches_behind_literal_iff {u body v : Text} {q : Char} {s : Scanner} (hq : IsQuote q)
    (hb : Escaped q body) (hr : Reaches (ofText (u ++ (quoted q body ++ v))) s)
    (hs : s.rest = quoted q body ++ v) (hm : s.mode.Outside) :
    ((∃ t, StepsOver s (quoted q body) v t ∧ Reaches (ofText (u ++ (quoted q body ++ v))) t) ↔
      body.getLast? ≠ some '\\') ∧
    (body.getLast? = some '\\' → s.step = .next ((s.keep
      ((closingQuote q q v).elim 1 (· + (quoted q body).length))).enter .code)) := by
  constructor
  · rw [← exists_stepsOver_iff hq hb hm hs]
    constructor
    · rintro ⟨t, h, -⟩
      exact ⟨t, h⟩
    · rintro ⟨t, h⟩
      exact ⟨t, h, hr.concat h.step⟩
  · exact step_escaped_backslash hq hb hm hs

/-- A literal with an escaped quote and an escaped backslash inside, in front of a comment. -/
theorem reaches_behind_literal_iff_pairs :
    ∃ s t : Scanner,
      Reaches (ofText ("x = " ++ (quoted '"' "\\\"\\\\n" ++ ";\n// y"))) s ∧
      StepsOver s (quoted '"' "\\\"\\\\n") ";\n// y" t ∧
      Reaches (ofText ("x = " ++ (quoted '"' "\\\"\\\\n" ++ ";\n// y"))) t := by
  have hb : Escaped '"' "\\\"\\\\n" :=
    .escape '"' (.escape '\\' (.plain (by decide) (by decide) .nil))
  have hreach : ∃ s : Scanner,
      Reaches (ofText ("x = " ++ (quoted '"' "\\\"\\\\n" ++ ";\n// y"))) s ∧
      s.rest = quoted '"' "\\\"\\\\n" ++ ";\n// y" ∧ s.mode.Outside :=
    ⟨_, .step rfl (.step rfl (.step rfl (.step rfl (.refl _)))), rfl, .inr rfl⟩
  obtain ⟨s, hr, hs, hm⟩ := hreach
  obtain ⟨t, h, ht⟩ := (reaches_behind_literal_iff (.inl rfl) hb hr hs hm).1.mpr (by decide)
  exact ⟨s, t, hr, h, ht⟩

/-- A literal that holds one escaped backslash is not stepped over, and swallows the comment on the
next line. -/
theorem escaped_backslash_swallows_comment :
    Escaped '"' "\\\\" ∧
    (ofText (quoted '"' "\\\\" ++ ";\n// the \"x\" one\n")).mode.Outside ∧
    (¬∃ t, StepsOver (ofText (quoted '"' "\\\\" ++ ";\n// the \"x\" one\n")) (quoted '"' "\\\\")
      ";\n// the \"x\" one\n" t) ∧
    (scan "a.js" (quoted '"' "\\\\" ++ ";\n// the \"x\" one\n")).map (List.map (·.kind)) =
      .ok [.code] := by
  refine ⟨.escape '\\' .nil, .inl rfl, ?_, by with_unfolding_all rfl⟩
  rintro ⟨t, h⟩
  have hstep := h.step
  have hlong : (ofText (quoted '"' "\\\\" ++ ";\n// the \"x\" one\n")).step =
      .next (((ofText (quoted '"' "\\\\" ++ ";\n// the \"x\" one\n")).keep 14).enter .code) := rfl
  rw [hlong] at hstep
  cases hstep
  exact absurd h.rest (by decide)

end Segment

end Marginalia
