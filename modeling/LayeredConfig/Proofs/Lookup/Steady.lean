import LayeredConfig.Context

/-!
Looking without disturbing. Which states are alike is left open: the equal ones for sources that
only read, those with the same answers for sources that keep what they have read. An action is
steady if it cannot tell states that are alike from one another and leaves such a state behind.
A whole look-up out of steady answers can then be read in the state in which it starts.
-/

namespace LayeredConfig

variable {σ α β ε : Type}

/-- What an action yields in a state. -/
def outcome (x : StateM σ α) (s : σ) : α := (x.run s).1

/-- The state that an action leaves. -/
def after (x : StateM σ α) (s : σ) : σ := (x.run s).2

theorem run_bind (x : StateM σ α) (f : α → StateM σ β) (s : σ) :
    (x >>= f).run s = (f (outcome x s)).run (after x s) := rfl

theorem run_bind_of_ok {x : ExceptT ε (StateM σ) α} {f : α → ExceptT ε (StateM σ) β} {s t : σ}
    {a : α} (h : x.run.run s = (.ok a, t)) : (x >>= f).run.run s = (f a).run.run t := by
  have houtcome : outcome x.run s = .ok a := congrArg (·.1) h
  have hafter : after x.run s = t := congrArg (·.2) h
  change (x.run >>= ExceptT.bindCont f).run s = _
  rw [run_bind, houtcome, hafter]
  rfl

theorem run_bind_of_error {x : ExceptT ε (StateM σ) α} {f : α → ExceptT ε (StateM σ) β} {s t : σ}
    {e : ε} (h : x.run.run s = (.error e, t)) : (x >>= f).run.run s = (.error e, t) := by
  have houtcome : outcome x.run s = .error e := congrArg (·.1) h
  have hafter : after x.run s = t := congrArg (·.2) h
  change (x.run >>= ExceptT.bindCont f).run s = _
  rw [run_bind, houtcome, hafter]
  rfl

theorem run_bind_congr {x y : ExceptT ε (StateM σ) α} {s : σ} (h : x.run.run s = y.run.run s)
    (f : α → ExceptT ε (StateM σ) β) : (x >>= f).run.run s = (y >>= f).run.run s := by
  change (x.run >>= ExceptT.bindCont f).run s = (y.run >>= ExceptT.bindCont f).run s
  rw [run_bind, run_bind, outcome, outcome, after, after, h]

theorem run_bind_cases {x : ExceptT ε (StateM σ) α} {f : α → ExceptT ε (StateM σ) β} {s t : σ}
    {r : Except ε β} (h : (x >>= f).run.run s = (r, t)) :
    (∃ e, x.run.run s = (.error e, t) ∧ r = .error e) ∨
      ∃ a u, x.run.run s = (.ok a, u) ∧ (f a).run.run u = (r, t) := by
  change (x.run >>= ExceptT.bindCont f).run s = _ at h
  rw [run_bind, outcome, after] at h
  cases hx : x.run.run s with
  | mk answer u =>
      rw [hx] at h
      cases answer with
      | error e =>
          cases h
          exact .inl ⟨e, rfl, rfl⟩
      | ok a => exact .inr ⟨a, u, rfl, h⟩

theorem exists_run_of_bind_ok {x : ExceptT ε (StateM σ) α} {f : α → ExceptT ε (StateM σ) β}
    {s t : σ} {b : β} (h : (x >>= f).run.run s = (.ok b, t)) :
    ∃ a u, x.run.run s = (.ok a, u) ∧ (f a).run.run u = (.ok b, t) := by
  rcases run_bind_cases h with ⟨e, -, he⟩ | hok
  · cases he
  · exact hok

theorem after_discard (x : ExceptT ε (StateM σ) α) (s : σ) :
    after (x >>= fun _ => pure ()).run s = after x.run s := by
  cases h : x.run.run s with
  | mk result t =>
      have hafter : after x.run s = t := congrArg (·.2) h
      rw [hafter]
      cases result with
      | error e => rw [after, run_bind_of_error h]
      | ok a =>
          rw [after, run_bind_of_ok h]
          rfl

theorem bind_eq_ok {x : Except ε α} {f : α → Except ε β} {b : β} (h : (x >>= f) = .ok b) :
    ∃ a, x = .ok a ∧ f a = .ok b := by
  cases x with
  | error e => cases h
  | ok a => exact ⟨a, rfl, h⟩

theorem bind_eq_ok_iff {x : Except ε α} {f : α → Except ε β} {b : β} :
    (x >>= f) = .ok b ↔ ∃ a, x.toOption = some a ∧ f a = .ok b := by
  cases x with
  | error e =>
      constructor
      · intro h
        cases h
      · rintro ⟨a, h, -⟩
        cases h
  | ok a =>
      constructor
      · intro h
        exact ⟨a, rfl, h⟩
      · rintro ⟨_, ⟨⟩, h⟩
        exact h

theorem run_bind_except {x : Except ε α} {f : α → ExceptT ε (StateM σ) β} {s t : σ}
    {r : Except ε β} (h : ((x : ExceptT ε (StateM σ) α) >>= f).run.run s = (r, t)) :
    (∃ e, x = .error e ∧ r = .error e ∧ t = s) ∨
      ∃ a, x = .ok a ∧ (f a).run.run s = (r, t) := by
  cases x with
  | error e =>
      cases h
      exact .inl ⟨e, rfl, rfl, rfl⟩
  | ok a => exact .inr ⟨a, rfl, h⟩

theorem run_bind_check {x : ExceptT ε (StateM σ) α} {f : α → Except ε β} {s t : σ} {r : Except ε α}
    (h : x.run.run s = (r, t)) :
    (x >>= fun a => (f a : ExceptT ε (StateM σ) β)).run.run s = (r >>= f, t) := by
  cases r with
  | error e => exact run_bind_of_error h
  | ok a =>
      rw [run_bind_of_ok h]
      change _ = (f a, t)
      cases f a with
      | error e => rfl
      | ok b => rfl

theorem run_lift {x : StateM σ α} {s t : σ} {a : α} (h : x.run s = (a, t)) :
    (ExceptT.lift x : ExceptT ε (StateM σ) α).run.run s = (.ok a, t) := by
  change (x >>= fun a => pure (Except.ok a)).run s = _
  rw [run_bind, outcome, after, h]
  rfl

variable [Setoid σ]

theorem alike_of_eq {s t : σ} (h : s = t) : s ≈ t := h ▸ Setoid.refl s

/-- An action that yields the same in states that are alike, and leaves one alike to the one it
found. -/
def Steady (x : StateM σ α) : Prop :=
  ∀ s t, s ≈ t → outcome x s = outcome x t ∧ after x s ≈ s

namespace Steady

theorem congr {x : StateM σ α} (hx : Steady x) {s t : σ} (h : s ≈ t) :
    outcome x s = outcome x t := (hx s t h).1

theorem after_alike {x : StateM σ α} (hx : Steady x) (s : σ) : after x s ≈ s :=
  (hx s s (Setoid.refl s)).2

theorem pure (a : α) : Steady (Pure.pure a : StateM σ α) :=
  fun s _ _ => ⟨rfl, Setoid.refl s⟩

theorem after_bind_alike {x : StateM σ α} {f : α → StateM σ β} (hx : Steady x)
    (hf : ∀ a, Steady (f a)) (s : σ) : after (x >>= f) s ≈ s :=
  Setoid.trans ((hf _).after_alike _) (hx.after_alike s)

theorem outcome_bind {x : StateM σ α} {f : α → StateM σ β} (hx : Steady x)
    (hf : ∀ a, Steady (f a)) (s : σ) :
    outcome (x >>= f) s = outcome (f (outcome x s)) s :=
  (hf _).congr (hx.after_alike s)

theorem bind {x : StateM σ α} {f : α → StateM σ β} (hx : Steady x) (hf : ∀ a, Steady (f a)) :
    Steady (x >>= f) := by
  intro s t h
  refine ⟨?_, hx.after_bind_alike hf s⟩
  rw [hx.outcome_bind hf, hx.outcome_bind hf, hx.congr h]
  exact (hf _).congr h

theorem bindExcept {x : ExceptT ε (StateM σ) α} {f : α → ExceptT ε (StateM σ) β}
    (hx : Steady x.run) (hf : ∀ a, Steady (f a).run) : Steady (x >>= f).run := by
  change Steady (x.run >>= ExceptT.bindCont f)
  refine hx.bind fun r => ?_
  cases r with
  | error e => exact .pure _
  | ok a => exact hf a

theorem lift {x : StateM σ α} (hx : Steady x) :
    Steady (ExceptT.lift x : ExceptT ε (StateM σ) α).run := hx.bind fun _ => .pure _

theorem elim {x : StateM σ β} {f : α → StateM σ β} (hx : Steady x) (hf : ∀ a, Steady (f a))
    (o : Option α) : Steady (o.elim x f) := by
  cases o with
  | none => exact hx
  | some a => exact hf a

/-- An action that changes nothing is steady if states that are alike give it the same. -/
theorem of_unchanged {x : StateM σ α} (hcongr : ∀ s t, s ≈ t → outcome x s = outcome x t)
    (hafter : ∀ s, after x s = s) : Steady x := by
  intro s t h
  exact ⟨hcongr s t h, alike_of_eq (hafter s)⟩

end Steady

namespace Provider

omit [Setoid σ]

def answer (p : Provider (StateM σ)) (key : String) (s : σ) :
    Except ConfigError (Option PropertyValue) := outcome (p.get key).run s

/-- The value that a provider has under a key; a failing one has none. -/
def answer? (p : Provider (StateM σ)) (key : String) (s : σ) : Option PropertyValue :=
  (p.answer key s).toOption.join

theorem answer?_eq_some_iff {p : Provider (StateM σ)} {key : String} {s : σ} {v : PropertyValue} :
    p.answer? key s = some v ↔ p.answer key s = .ok (some v) := by
  cases h : p.answer key s with
  | error e => simp [answer?, h, Except.toOption]
  | ok v' => simp [answer?, h, Except.toOption]

end Provider

/-- A provider that may be asked for values and for its default ordinal without a change in what
any other question is answered. -/
structure Provider.Steady (p : Provider (StateM σ)) : Prop where
  get : ∀ key, LayeredConfig.Steady (p.get key).run
  defaultOrdinal : LayeredConfig.Steady p.defaultOrdinal

namespace Context

omit [Setoid σ] in
theorem firstAnswer_cons (key : String) (p : Provider (StateM σ))
    (ps : List (Provider (StateM σ))) :
    firstAnswer key (p :: ps) = (p.get key).run >>= fun answer =>
      answer.toOption.join.elim (firstAnswer key ps) (fun v => pure (some v)) := by
  rw [firstAnswer]
  congr
  funext answer
  cases answer with
  | error e => rfl
  | ok v =>
      cases v with
      | none => rfl
      | some v => rfl

theorem steady_firstAnswer (key : String) {ps : List (Provider (StateM σ))}
    (h : ∀ p ∈ ps, p.Steady) : Steady (firstAnswer key ps) := by
  induction ps with
  | nil => exact .pure none
  | cons p ps ih =>
      rw [firstAnswer_cons]
      have hps : Steady (firstAnswer key ps) := ih fun q hq => h q (List.mem_cons_of_mem p hq)
      exact ((h p List.mem_cons_self).get key).bind fun _ => hps.elim (fun _ => .pure _) _

theorem outcome_firstAnswer (key : String) {ps : List (Provider (StateM σ))}
    (h : ∀ p ∈ ps, p.Steady) (s : σ) :
    outcome (firstAnswer key ps) s = ps.findSome? (·.answer? key s) := by
  induction ps with
  | nil => rfl
  | cons p ps ih =>
      have hps : ∀ q ∈ ps, q.Steady := fun q hq => h q (List.mem_cons_of_mem p hq)
      rw [firstAnswer_cons, ((h p List.mem_cons_self).get key).outcome_bind fun _ =>
        (steady_firstAnswer key hps).elim (fun _ => .pure _) _, List.findSome?_cons]
      change outcome ((p.answer? key s).elim _ _) s = _
      cases p.answer? key s with
      | none => exact ih hps
      | some v => rfl

end Context

end LayeredConfig
