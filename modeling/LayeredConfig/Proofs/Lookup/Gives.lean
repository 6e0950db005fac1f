import LayeredConfig.Proofs.Lookup.Steady

/-!
Actions with a fixed answer. As long as the state stays alike to the one that is meant, such an
action gives the same value each time, and it keeps the state alike.
-/

namespace LayeredConfig

variable {σ α β ε : Type} [Setoid σ]

/-- In every state alike to `s`, an action yields `a` and leaves such a state. -/
def Gives (x : StateM σ α) (s : σ) (a : α) : Prop := ∀ t, t ≈ s → ∃ u, u ≈ s ∧ x.run t = (a, u)

namespace Gives

theorem pure (a : α) (s : σ) : Gives (Pure.pure a : StateM σ α) s a := fun t ht => ⟨t, ht, rfl⟩

theorem bind {x : StateM σ α} {f : α → StateM σ β} {s : σ} {a : α} {b : β} (hx : Gives x s a)
    (hf : Gives (f a) s b) : Gives (x >>= f) s b := by
  intro t ht
  obtain ⟨u, hu, hxrun⟩ := hx t ht
  obtain ⟨v, hv, hfrun⟩ := hf u hu
  refine ⟨v, hv, ?_⟩
  rw [run_bind, outcome, after, hxrun]
  exact hfrun

theorem mapM {f : α → StateM σ β} {g : α → β} {s : σ} {l : List α}
    (h : ∀ a ∈ l, Gives (f a) s (g a)) : Gives (l.mapM f) s (l.map g) := by
  induction l with
  | nil => exact .pure [] s
  | cons a l ih =>
      rw [List.mapM_cons, List.map_cons]
      have hrest := ih fun b hb => h b (List.mem_cons_of_mem a hb)
      exact (h a List.mem_cons_self).bind (hrest.bind (.pure _ s))

theorem bindExcept {x : ExceptT ε (StateM σ) α} {f : α → ExceptT ε (StateM σ) β} {s : σ} {a : α}
    {r : Except ε β} (hx : Gives x.run s (.ok a)) (hf : Gives (f a).run s r) :
    Gives (x >>= f).run s r := by
  intro t ht
  obtain ⟨u, hu, hxrun⟩ := hx t ht
  obtain ⟨v, hv, hfrun⟩ := hf u hu
  exact ⟨v, hv, (run_bind_of_ok hxrun).trans hfrun⟩

theorem ok (a : α) (s : σ) : Gives (Pure.pure a : ExceptT ε (StateM σ) α).run s (.ok a) :=
  .pure (Except.ok a) s

theorem lift {x : StateM σ α} {s : σ} {a : α} (hx : Gives x s a) :
    Gives (ExceptT.lift x : ExceptT ε (StateM σ) α).run s (.ok a) := by
  intro t ht
  obtain ⟨u, hu, hrun⟩ := hx t ht
  exact ⟨u, hu, run_lift hrun⟩

theorem outcome_eq {x : StateM σ α} {s : σ} {a : α} (hx : Gives x s a) : outcome x s = a := by
  obtain ⟨u, -, hrun⟩ := hx s (Setoid.refl s)
  exact congrArg (·.1) hrun

theorem self {x : StateM σ α} {s : σ} {a : α} (hx : Gives x s a) : Gives x s (outcome x s) := by
  rw [hx.outcome_eq]
  exact hx

theorem of_steady {x : StateM σ α} (hx : Steady x) (s : σ) : Gives x s (outcome x s) := by
  intro t ht
  refine ⟨after x t, Setoid.trans (hx.after_alike t) ht, ?_⟩
  rw [← hx.congr ht]
  rfl

end Gives

end LayeredConfig
