import LayeredConfig.Pattern.Whole
import Mathlib.Data.List.Basic

/-!
What regular expressions are documented to be, as laws of an engine, and what follows for an
expression that is tied to both ends of a text. It stands in a group of its own there, and the group
ends where the expression ends, but for two kinds of expressions: one that ends in a comment hides
the end of the group, and one with a closing parenthesis that it does not open ends the group early.
-/

namespace LayeredConfig.Pattern

/-- A place lies further on in the same text, or is the same. -/
def Place.Reaches (p q : Place) : Prop :=
  ∃ taken, p.after = taken ++ q.after ∧ q.before = taken.reverse ++ p.before

theorem Place.Reaches.refl (p : Place) : p.Reaches p := ⟨[], rfl, rfl⟩

theorem Place.Reaches.eq_start {s : List Char} {p : Place} (h : Place.Reaches ⟨[], s⟩ p)
    (hbefore : p.before = []) : p = ⟨[], s⟩ := by
  obtain ⟨taken, htext, hback⟩ := h
  rw [hbefore] at hback
  obtain ⟨htaken, -⟩ := List.append_eq_nil_iff.1 hback.symm
  rw [List.reverse_eq_nil_iff.1 htaken, List.nil_append] at htext
  cases p
  cases hbefore
  cases htext
  rfl

theorem Place.Reaches.eq_end {s : List Char} {q : Place} (h : Place.Reaches ⟨[], s⟩ q)
    (hafter : q.after = []) : q = ⟨s.reverse, []⟩ := by
  obtain ⟨taken, htext, hback⟩ := h
  rw [hafter, List.append_nil] at htext
  rw [← htext, List.append_nil] at hback
  cases q
  cases hafter
  cases hback
  rfl

def inGroup (s : List Char) : List Char := '(' :: '?' :: ':' :: (s ++ [')'])

/-- An expression in a group of its own, between marks of both ends of a text. -/
def tie (s : List Char) : List Char := '^' :: (inGroup s ++ ['$'])

namespace Engine

variable {engine : Engine} {s t : List Char}

/-- An expression matches a text from its start to its end. -/
def MatchesWhole (engine : Engine) (r : engine.Expression) (s : List Char) : Prop :=
  engine.Matches r ⟨[], s⟩ ⟨s.reverse, []⟩

/-- An expression that stays readable with a closing parenthesis behind it: it ends in a comment,
and so does the parenthesis. -/
def EndsInComment (engine : Engine) (s : List Char) : Prop :=
  (engine.parse? s).isSome = true ∧ (engine.parse? (s ++ [')'])).isSome = true

instance (engine : Engine) (s : List Char) : Decidable (engine.EndsInComment s) :=
  inferInstanceAs (Decidable (_ ∧ _))

/-- A text with an expression in front of a closing parenthesis, which closes what stands around. -/
def ClosesEarly (engine : Engine) (s : List Char) : Prop :=
  ∃ used rest, s = used ++ ')' :: rest ∧ (engine.parse? used).isSome = true ∧
    ¬ engine.EndsInComment used

/-- A group with an expression in it, between marks of the start and of the end of a text. -/
inductive Sequence (engine : Engine) : List Char → Prop
  | group {s : List Char} : (engine.parse? s).isSome = true → ¬ engine.EndsInComment s →
      Sequence engine (inGroup s)
  | start {t : List Char} : Sequence engine t → Sequence engine ('^' :: t)
  | finish {t : List Char} : Sequence engine t → Sequence engine (t ++ ['$'])

/-- The documented syntax and matching of regular expressions, as far as parentheses and the marks of
both ends of a text go. A group without a name matches what the expression in it matches, and one
thing after another matches what they match one after another. Each parenthesis that opens a group
needs one that closes it, with an expression between them, and none closes what is not open; none of
this holds of parentheses in comments, which go to the end of their line. -/
structure Documented (engine : Engine) : Prop where
  reaches : ∀ {r p q}, engine.Matches r p q → p.Reaches q
  isMatch_iff : ∀ {r s}, engine.isMatch r s = true ↔
    ∃ p q, Place.Reaches ⟨[], s⟩ p ∧ engine.Matches r p q
  group : ∀ {s r}, engine.parse? s = some r → ¬ engine.EndsInComment s →
    ∃ g, engine.parse? (inGroup s) = some g ∧ ∀ p q, engine.Matches g p q ↔ engine.Matches r p q
  start : ∀ {t r}, engine.Sequence t → engine.parse? t = some r →
    ∃ tied, engine.parse? ('^' :: t) = some tied ∧
      ∀ p q, engine.Matches tied p q ↔ p.before = [] ∧ engine.Matches r p q
  finish : ∀ {t r}, engine.Sequence t → engine.parse? t = some r →
    ∃ tied, engine.parse? (t ++ ['$']) = some tied ∧
      ∀ p q, engine.Matches tied p q ↔ engine.Matches r p q ∧ q.after = []
  closed : ∀ {marks t}, (∀ c ∈ marks, c = '^' ∨ c = '$') →
    (engine.parse? (marks ++ '(' :: '?' :: ':' :: t)).isSome = true →
    ∃ used rest, t = used ++ ')' :: rest ∧ (engine.parse? used).isSome = true ∧
      ¬ engine.EndsInComment used
  unopened : ∀ {s t}, (engine.parse? s).isSome = true → ¬ engine.EndsInComment s →
    engine.parse? (s ++ ')' :: t) = none

theorem ClosesEarly.mem (h : engine.ClosesEarly s) : ')' ∈ s := by
  obtain ⟨used, rest, rfl, -⟩ := h
  exact List.mem_append_right used List.mem_cons_self

namespace Documented

theorem parse?_of_closesEarly (h : engine.Documented) (hearly : engine.ClosesEarly s) :
    engine.parse? s = none := by
  obtain ⟨used, rest, rfl, hread, hcomment⟩ := hearly
  exact h.unopened hread hcomment

/-- Tied to both ends of a text, an expression matches anywhere in it what it matches as a whole. -/
theorem parse?_tie_of_open (h : engine.Documented) {r : engine.Expression}
    (hread : engine.parse? s = some r) (hcomment : ¬ engine.EndsInComment s) :
    ∃ tied, engine.parse? (tie s) = some tied ∧
      ∀ text, engine.isMatch tied text = true ↔ engine.MatchesWhole r text := by
  have hgroup : engine.Sequence (inGroup s) := .group (by rw [hread]; rfl) hcomment
  obtain ⟨g, hg, hgmatch⟩ := h.group hread hcomment
  obtain ⟨ended, hended, hendmatch⟩ := h.finish hgroup hg
  obtain ⟨tied, htied, hmatch⟩ := h.start hgroup.finish hended
  refine ⟨tied, htied, ?_⟩
  intro text
  rw [h.isMatch_iff]
  simp only [hmatch, hendmatch, hgmatch]
  constructor
  · rintro ⟨p, q, hp, hbefore, hr, hafter⟩
    obtain rfl := hp.eq_start hbefore
    obtain rfl := (h.reaches hr).eq_end hafter
    exact hr
  · intro hr
    exact ⟨_, _, .refl _, rfl, hr, rfl⟩

/-- Only what is an expression on its own can be tied, but for one that closes early. -/
theorem open_or_closesEarly (h : engine.Documented)
    (htied : (engine.parse? (tie s)).isSome = true) :
    ((engine.parse? s).isSome = true ∧ ¬ engine.EndsInComment s) ∨ engine.ClosesEarly s := by
  have htext : tie s = ['^'] ++ '(' :: '?' :: ':' :: (s ++ [')', '$']) := by
    simp [tie, inGroup]
  rw [htext] at htied
  obtain ⟨used, rest, hsplit, hused⟩ := h.closed (by simp) htied
  -- The parenthesis that ends the group is the one put there, or one of the expression itself.
  rcases List.append_eq_append_iff.1 hsplit with ⟨v, rfl, hv⟩ | ⟨v, rfl, hv⟩
  · cases v with
    | nil =>
        rw [List.append_nil] at hused
        exact .inl hused
    | cons d v =>
        obtain ⟨-, hend⟩ := List.cons.inj hv
        cases v <;> simp at hend
  · cases v with
    | nil =>
        rw [List.append_nil]
        exact .inl hused
    | cons d v =>
        obtain ⟨rfl, -⟩ := List.cons.inj hv
        exact .inr ⟨used, v, rfl, hused⟩

theorem parse?_tie_of_comment (h : engine.Documented) (hcomment : engine.EndsInComment s) :
    engine.parse? (tie s) = none := by
  by_contra htied
  rcases h.open_or_closesEarly (Option.isSome_iff_ne_none.2 htied) with ⟨-, hopen⟩ | hearly
  · exact hopen hcomment
  · have hread := hcomment.1
    rw [h.parse?_of_closesEarly hearly] at hread
    cases hread

theorem parse?_tie_of_unreadable (h : engine.Documented) (hread : engine.parse? s = none)
    (hearly : ¬ engine.ClosesEarly s) : engine.parse? (tie s) = none := by
  by_contra htied
  rcases h.open_or_closesEarly (Option.isSome_iff_ne_none.2 htied) with ⟨hsome, -⟩ | hcloses
  · rw [hread] at hsome
    cases hsome
  · exact hearly hcloses

end Documented

end Engine

end LayeredConfig.Pattern

namespace LayeredConfig.WholePattern

open Pattern

theorem compile?_eq (engine : Engine) (expression : String) :
    compile? engine expression = (engine.compile? (tie expression.toList)).map fun r =>
      ⟨"^(?:" ++ expression ++ ")$", fun s => engine.isMatch r s.toList⟩ := by
  have htext : ("^(?:" ++ expression ++ ")$").toList = tie expression.toList := by
    simp [tie, inGroup]
  rw [compile?, htext]

theorem compile?_of_parse? {engine : Engine} {expression : String} {r : engine.Expression}
    (hread : engine.parse? (tie expression.toList) = some r) :
    compile? engine expression = if engine.fits r then
      some ⟨"^(?:" ++ expression ++ ")$", fun s => engine.isMatch r s.toList⟩ else none := by
  rw [compile?_eq, Engine.compile?, hread, Option.filter]
  split <;> rfl

theorem compile?_of_unreadable {engine : Engine} {expression : String}
    (hread : engine.parse? (tie expression.toList) = none) : compile? engine expression = none := by
  rw [compile?_eq, Engine.compile?, hread]
  rfl

end LayeredConfig.WholePattern
