import LayeredConfig.Filter.Hiding
import LayeredConfig.Proofs.Change.Selection
import LayeredConfig.Proofs.Pattern.Standard
import LayeredConfig.Provider.Memory

/-!
Restrictions of keys and names to what an expression matches: a filter hides keys, a memory provider
takes changes of keys, and a policy selects names. All three tie the expression to both ends of the
text.
-/

namespace LayeredConfig

open Pattern

/-- An expression is accepted everywhere, and what it restricts are the keys and the names that it
matches as a whole. -/
structure Restricts (m : Type → Type) [Monad m] (engine : Engine) (expression : String)
    (r : engine.Expression) : Prop where
  hides : ∃ filter : Filter m, Filter.hide expression engine = .ok filter ∧ ∀ ctx v,
    (engine.MatchesWhole r v.key.toList → filter.apply ctx v = pure none) ∧
      (¬ engine.MatchesWhole r v.key.toList → filter.apply ctx v = pure (some v))
  takes : ∃ pattern, MemoryProvider.keyPattern expression engine = .ok pattern ∧
    ∀ (p : MemoryProvider) (key : String),
      { p with writableKeys := some pattern }.accepts key = true ↔
        p.writable = true ∧ engine.MatchesWhole r key.toList
  selects : ∃ policy, Policy.selecting expression engine = .ok policy ∧ ∀ change targets i,
    i ∈ policy.select change targets ↔
      ∃ t, targets[i]? = some t ∧ t.accepts change = true ∧ engine.MatchesWhole r t.name.toList

/-- An expression is refused everywhere, with its text in the error. -/
structure Refused (m : Type → Type) [Monad m] (engine : Engine) (expression : String) : Prop where
  hides : (Filter.hide expression engine : Except ConfigError (Filter m)) =
    .error (.argument (.keyPattern expression))
  takes : MemoryProvider.keyPattern expression engine =
    .error (.argument (.keyPattern expression))
  selects : Policy.selecting expression engine = .error (.argument (.nameExpression expression))

variable {m : Type → Type} [Monad m] {engine : Engine}

theorem restricts_of_compile? {expression : String} {pattern : WholePattern}
    {r : engine.Expression} (hcompile : WholePattern.compile? engine expression = some pattern)
    (hmatch : ∀ s, pattern.accepts s = true ↔ engine.MatchesWhole r s.toList) :
    Restricts m engine expression r := by
  refine ⟨⟨_, by rw [Filter.hide, hcompile], ?_⟩,
    ⟨_, by rw [MemoryProvider.keyPattern, hcompile], ?_⟩,
    ⟨_, by rw [Policy.selecting, hcompile], ?_⟩⟩
  · intro ctx v
    refine ⟨?_, ?_⟩
    · intro h
      simp [(hmatch v.key).2 h]
    · intro h
      simp [mt (hmatch v.key).1 h]
  · intro p key
    simp [MemoryProvider.accepts, hmatch]
  · intro change targets i
    rw [(Policy.selects_select (.selective pattern) change targets).2 i]
    simp only [hmatch]

theorem refused_of_compile? {expression : String}
    (h : WholePattern.compile? engine expression = none) : Refused m engine expression := by
  refine ⟨?_, ?_, ?_⟩
  · rw [Filter.hide, h]
  · rw [MemoryProvider.keyPattern, h]
  · rw [Policy.selecting, h]

/-- An expression restricts to what it matches as a whole if it can be read on its own and does not
end in a comment, unless it goes beyond the limits of the engine with the group and the marks around
it. It is refused if it ends in a comment, which hides the end of the group around it, and if it
cannot be read on its own. What remains are expressions that close a group which they do not open.
They cannot be read on their own either, but the group they close may be the one around them. -/
theorem restriction_laws (h : engine.Documented) (expression : String) :
    (∀ r, engine.parse? expression.toList = some r →
      (¬ engine.EndsInComment expression.toList →
        ∃ tied, engine.parse? (tie expression.toList) = some tied ∧
          (engine.fits tied = true → Restricts m engine expression r) ∧
          (engine.fits tied = false → Refused m engine expression)) ∧
        (engine.EndsInComment expression.toList → Refused m engine expression)) ∧
      (engine.parse? expression.toList = none → ¬ engine.ClosesEarly expression.toList →
        Refused m engine expression) ∧
      (engine.ClosesEarly expression.toList → engine.parse? expression.toList = none) := by
  refine ⟨?_, ?_, h.parse?_of_closesEarly⟩
  · intro r hread
    refine ⟨?_, ?_⟩
    · intro hcomment
      obtain ⟨tied, htied, hmatch⟩ := h.parse?_tie_of_open hread hcomment
      have hcompile := WholePattern.compile?_of_parse? htied
      refine ⟨tied, htied, ?_, ?_⟩
      · intro hfits
        rw [if_pos hfits] at hcompile
        exact restricts_of_compile? hcompile fun s => hmatch s.toList
      · intro hfits
        rw [hfits, if_neg Bool.false_ne_true] at hcompile
        exact refused_of_compile? hcompile
    · intro hcomment
      exact refused_of_compile?
        (WholePattern.compile?_of_unreadable (h.parse?_tie_of_comment hcomment))
  · intro hread hearly
    exact refused_of_compile?
      (WholePattern.compile?_of_unreadable (h.parse?_tie_of_unreadable hread hearly))

namespace Sample

/-- An alternative is restricted to as a whole. An expression with a comment and one that leaves a
group open are refused. -/
theorem alternative_restricts :
    Restricts Act .standard "a|b" (.alt (.set (.single 'a')) (.set (.single 'b'))) ∧
      Refused Act .standard "(?x)a # note" ∧ Refused Act .standard "a(" := by
  have hread : Syntax.read? "a|b".toList =
      some (.alt (.set (.single 'a')) (.set (.single 'b'))) := by decide +kernel
  refine ⟨?_, ?_, ?_⟩
  · obtain ⟨tied, -, hrestricts, -⟩ :=
      ((restriction_laws (m := Act) Engine.standard_documented "a|b").1 _ hread).1
        (by decide +kernel)
    exact hrestricts rfl
  · exact ((restriction_laws Engine.standard_documented "(?x)a # note").1 _
      (Option.some_get (by decide +kernel)).symm).2 (by decide +kernel)
  · refine (restriction_laws Engine.standard_documented "a(").2.1 (by decide +kernel) fun h => ?_
    exact absurd h.mem (by decide +kernel)

/-- An expression that closes the group around it and opens another one cannot be read on its own
and is accepted all the same, and then for more than whole keys. One with a comment at its end can
be read on its own and is refused. -/
theorem tied_text_differs :
    Engine.standard.compile? "a)|(?:b".toList = none ∧
      (∃ pattern, MemoryProvider.keyPattern "a)|(?:b" .standard = .ok pattern ∧
        Policy.selecting "a)|(?:b" .standard = .ok (.selective pattern) ∧
        pattern.accepts "axe" = true) ∧
      (∃ filter : Filter Act, Filter.hide "a)|(?:b" .standard = .ok filter ∧
        ∀ ctx v, v.key = "axe" → filter.apply ctx v = pure none) ∧
      (Engine.standard.compile? "(?x)a # note".toList).isSome = true ∧
      Refused Act .standard "(?x)a # note" := by
  have hcompile : (WholePattern.compile? .standard "a)|(?:b").any (·.accepts "axe") = true := by
    decide +kernel
  obtain ⟨pattern, hpattern, haccepts⟩ := (Option.any_eq_true ..).1 hcompile
  refine ⟨by decide +kernel, ⟨pattern, ?_, ?_, haccepts⟩,
    ⟨_, by rw [Filter.hide, hpattern], ?_⟩, by decide +kernel,
    refused_of_compile? (by decide +kernel)⟩
  · rw [MemoryProvider.keyPattern, hpattern]
  · rw [Policy.selecting, hpattern]
  · intro ctx v hkey
    simp [hkey, haccepts]

end Sample

end LayeredConfig
