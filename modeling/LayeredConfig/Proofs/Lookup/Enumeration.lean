import LayeredConfig.Proofs.Provider.Steady
import LayeredConfig.Sample.Filter

/-!
Enumerations and look-ups. An enumeration merges whole providers, a look-up stops at the first
answer; where every provider answers as it lists, and no provider that is left out of enumerations
comes first, both show the same.
-/

namespace LayeredConfig

variable {σ : Type}

def Provider.listing (p : Provider (StateM σ)) (s : σ) :
    Except ConfigError (KeyMap PropertyValue) := outcome p.properties.run s

/-- A provider that lists its entries answers every key as listed. -/
def Provider.Consistent (p : Provider (StateM σ)) (s : σ) : Prop :=
  ∀ m, p.listing s = .ok m → ∀ key, p.answer key s = .ok (m.get? key)

/-- A filter does not look at the entries that an enumeration has filtered before, nor whether there
is an enumeration at all. -/
def Filter.Blind {m : Type → Type} (f : Filter m) : Prop :=
  ∀ key raw resolved resolved' v, f.apply ⟨key, raw, resolved⟩ v = f.apply ⟨key, raw, resolved'⟩ v

/-- A context in which no look-up, no listing and no filter disturbs another one. -/
structure Context.Undisturbed [Setoid σ] (c : Context (StateM σ)) : Prop where
  providers : ∀ p ∈ c.providers, p.Steady
  listings : ∀ p ∈ c.providers, Steady p.properties.run
  filters : ∀ f ∈ c.filters, ∀ key resolved v,
    Steady (f.apply ⟨key, c.getRaw, resolved⟩ v)

theorem Filter.chain_congr_of_blind {m : Type → Type} [Monad m] {filters : List (Filter m)}
    (h : ∀ f ∈ filters, f.Blind) (key : String) (raw : String → m (Option PropertyValue))
    (resolved resolved' : Option (KeyMap PropertyValue)) (v : PropertyValue) :
    chain ⟨key, raw, resolved⟩ filters v = chain ⟨key, raw, resolved'⟩ filters v := by
  induction filters generalizing v with
  | nil => rfl
  | cons f filters ih =>
      rw [chain, chain, h f List.mem_cons_self key raw resolved resolved']
      congr
      funext r
      cases r with
      | none => rfl
      | some v => exact ih (fun g hg => h g (List.mem_cons_of_mem f hg)) v

theorem Filter.steady_chain [Setoid σ] {ctx : FilterContext (StateM σ)}
    {filters : List (Filter (StateM σ))} (h : ∀ f ∈ filters, ∀ v, Steady (f.apply ctx v))
    (v : PropertyValue) : Steady (chain ctx filters v) := by
  induction filters generalizing v with
  | nil => exact .pure _
  | cons f filters ih =>
      refine (h f List.mem_cons_self v).bind fun r => ?_
      cases r with
      | none => exact .pure _
      | some v => exact ih (fun g hg => h g (List.mem_cons_of_mem f hg)) v

namespace Context

theorem get?_addMissing {β : Type} (m : KeyMap β) (entries : List (String × β)) (key : String) :
    (addMissing m entries).get? key = (m.get? key).or (KeyMap.lookup key entries) := by
  induction entries generalizing m with
  | nil => exact Option.or_none.symm
  | cons e entries ih =>
      obtain ⟨k, v⟩ := e
      change (addMissing (if m.contains k then m else m.insert k v) entries).get? key = _
      rw [ih, KeyMap.lookup, KeyMap.contains]
      by_cases hk : k = key
      · subst hk
        cases h : m.get? k with
        | none => simp
        | some w => simp [h]
      · rw [if_neg hk]
        cases m.get? k with
        | none => simp [KeyMap.get?_insert_of_ne m v hk]
        | some w => simp

variable [Setoid σ]

omit [Setoid σ] in
theorem collect_cons (acc : KeyMap PropertyValue) (p : Provider (StateM σ))
    (ps : List (Provider (StateM σ))) :
    (collect acc (p :: ps)).run =
      if p.scannable then p.properties.run >>= fun
        | .error e => pure (.error (sourceFailure p.name e))
        | .ok entries => (collect (addMissing acc entries.entries) ps).run
      else (collect acc ps).run := by
  rw [collect]
  split
  · rw [ExceptT.run_bind, ExceptT.run_tryCatch, bind_assoc]
    congr
    funext r
    cases r with
    | error e => rfl
    | ok entries => rfl
  · rfl

theorem steady_collect {ps : List (Provider (StateM σ))}
    (h : ∀ p ∈ ps, Steady p.properties.run) (acc : KeyMap PropertyValue) :
    Steady (collect acc ps).run := by
  induction ps generalizing acc with
  | nil => exact .pure _
  | cons p ps ih =>
      have hps := ih fun q hq => h q (List.mem_cons_of_mem p hq)
      rw [collect_cons]
      split
      · refine (h p List.mem_cons_self).bind fun r => ?_
        cases r with
        | error e => exact .pure _
        | ok entries => exact hps _
      · exact hps acc

omit [Setoid σ] in
theorem outcome_collect_skip {p : Provider (StateM σ)} (hp : p.scannable = false)
    (acc : KeyMap PropertyValue) (ps : List (Provider (StateM σ))) (s : σ) :
    outcome (collect acc (p :: ps)).run s = outcome (collect acc ps).run s := by
  rw [collect_cons, hp]
  rfl

theorem outcome_collect_scan {p : Provider (StateM σ)} {ps : List (Provider (StateM σ))}
    (hp : p.scannable = true) (h : ∀ q ∈ p :: ps, Steady q.properties.run)
    (acc : KeyMap PropertyValue) (s : σ) :
    outcome (collect acc (p :: ps)).run s =
      match p.listing s with
      | .error e => .error (sourceFailure p.name e)
      | .ok m => outcome (collect (addMissing acc m.entries) ps).run s := by
  obtain ⟨hlisting, hps⟩ := List.forall_mem_cons.1 h
  rw [collect_cons, if_pos hp, hlisting.outcome_bind]
  · change outcome (match p.listing s with | .error e => _ | .ok m => _) s = _
    cases p.listing s with
    | error e => rfl
    | ok m => rfl
  · intro r
    cases r with
    | error e => exact .pure _
    | ok entries => exact steady_collect hps _

theorem collect_error {ps : List (Provider (StateM σ))} (h : ∀ p ∈ ps, Steady p.properties.run)
    {acc : KeyMap PropertyValue} {s : σ} {e : ConfigError}
    (he : outcome (collect acc ps).run s = .error e) :
    ∃ front p rest e', ps = front ++ p :: rest ∧
      (∀ q ∈ front, q.scannable = true → ∃ m, q.listing s = .ok m) ∧
      p.scannable = true ∧ p.listing s = .error e' ∧ e = sourceFailure p.name e' := by
  induction ps generalizing acc with
  | nil => cases he
  | cons p ps ih =>
      have hps : ∀ q ∈ ps, Steady q.properties.run := fun q hq => h q (List.mem_cons_of_mem p hq)
      cases hp : p.scannable with
      | false =>
          rw [outcome_collect_skip hp] at he
          obtain ⟨front, q, rest, e', rfl, hfront, hq⟩ := ih hps he
          refine ⟨p :: front, q, rest, e', rfl, ?_, hq⟩
          rw [List.forall_mem_cons]
          exact ⟨fun hscan => (Bool.false_ne_true (hp ▸ hscan)).elim, hfront⟩
      | true =>
          rw [outcome_collect_scan hp h] at he
          cases hlisting : p.listing s with
          | error e' =>
              rw [hlisting] at he
              cases he
              exact ⟨[], p, ps, e', rfl, fun _ hq => absurd hq List.not_mem_nil, hp, hlisting, rfl⟩
          | ok m =>
              rw [hlisting] at he
              obtain ⟨front, q, rest, e', rfl, hfront, hq⟩ := ih hps he
              refine ⟨p :: front, q, rest, e', rfl, ?_, hq⟩
              rw [List.forall_mem_cons]
              exact ⟨fun _ => ⟨m, hlisting⟩, hfront⟩

/-- A merge that succeeds holds under each key what the first provider that is listed has there. -/
theorem collect_ok {ps : List (Provider (StateM σ))} (h : ∀ p ∈ ps, Steady p.properties.run)
    {s : σ} (hconsistent : ∀ p ∈ ps, p.scannable = true → p.Consistent s)
    {acc m : KeyMap PropertyValue} (hm : outcome (collect acc ps).run s = .ok m) :
    (∀ p ∈ ps, p.scannable = true → ∃ listed, p.listing s = .ok listed) ∧
      ∀ key, m.get? key =
        (acc.get? key).or ((ps.filter (·.scannable)).findSome? (·.answer? key s)) := by
  induction ps generalizing acc with
  | nil =>
      cases hm
      exact ⟨fun _ hp => absurd hp List.not_mem_nil, fun key => Option.or_none.symm⟩
  | cons p ps ih =>
      have hps : ∀ q ∈ ps, Steady q.properties.run := fun q hq => h q (List.mem_cons_of_mem p hq)
      obtain ⟨hconsistent, hconsistents⟩ := List.forall_mem_cons.1 hconsistent
      cases hp : p.scannable with
      | false =>
          rw [outcome_collect_skip hp] at hm
          obtain ⟨hlisted, hget⟩ := ih hps hconsistents hm
          rw [List.forall_mem_cons, List.filter_cons_of_neg (by simp [hp])]
          exact ⟨⟨fun hscan => (Bool.false_ne_true (hp ▸ hscan)).elim, hlisted⟩, hget⟩
      | true =>
          rw [outcome_collect_scan hp h] at hm
          cases hlisting : p.listing s with
          | error e => 
              rw [hlisting] at hm
              cases hm
          | ok listed =>
              rw [hlisting] at hm
              obtain ⟨hlisted, hget⟩ := ih hps hconsistents hm
              rw [List.forall_mem_cons, List.filter_cons_of_pos (by simpa using hp)]
              refine ⟨⟨fun _ => ⟨listed, hlisting⟩, hlisted⟩, fun key => ?_⟩
              have hanswer : p.answer? key s = listed.get? key := by
                rw [Provider.answer?, hconsistent hp listed hlisting key]
                rfl
              rw [hget, get?_addMissing, List.findSome?_cons, hanswer, Option.or_assoc]
              congr
              change (listed.get? key).or _ = _
              cases listed.get? key with
              | none => rfl
              | some v => rfl

theorem Undisturbed.chain {c : Context (StateM σ)} (h : c.Undisturbed) (key : String)
    (resolved : Option (KeyMap PropertyValue)) (v : PropertyValue) :
    Steady (Filter.chain ⟨key, c.getRaw, resolved⟩ c.filters v) :=
  Filter.steady_chain (fun f hf v => h.filters f hf key resolved v) v

omit [Setoid σ] in
theorem filterAll_cons (c : Context (StateM σ)) (resolved : KeyMap PropertyValue) (key : String)
    (v : PropertyValue) (entries : List (String × PropertyValue)) :
    c.filterAll resolved ((key, v) :: entries) =
      Filter.chain ⟨key, c.getRaw, some resolved⟩ c.filters v >>= fun r =>
        r.elim (c.filterAll resolved entries) fun v =>
          c.filterAll (resolved.insert key v) entries := by
  rw [filterAll]
  congr
  funext r
  cases r with
  | none => rfl
  | some v => rfl

theorem Undisturbed.filterAll {c : Context (StateM σ)} (h : c.Undisturbed)
    (resolved : KeyMap PropertyValue) (entries : List (String × PropertyValue)) :
    Steady (c.filterAll resolved entries) := by
  induction entries generalizing resolved with
  | nil => exact .pure _
  | cons e entries ih =>
      obtain ⟨key, v⟩ := e
      rw [filterAll_cons]
      exact (h.chain key _ v).bind fun r => (ih resolved).elim (fun v => ih _) r

theorem get?_filterAll {c : Context (StateM σ)} (h : c.Undisturbed)
    (hblind : ∀ f ∈ c.filters, f.Blind) (s : σ) {entries : List (String × PropertyValue)}
    (hsorted : entries.Pairwise (fun a b => a.1 < b.1)) (resolved : KeyMap PropertyValue)
    (key : String) :
    (outcome (c.filterAll resolved entries) s).get? key =
      ((KeyMap.lookup key entries).bind fun v =>
        outcome (Filter.chain ⟨key, c.getRaw, none⟩ c.filters v) s).or (resolved.get? key) := by
  induction entries generalizing resolved with
  | nil => rfl
  | cons e entries ih =>
      obtain ⟨k, v⟩ := e
      obtain ⟨hlt, hsorted⟩ := List.pairwise_cons.1 hsorted
      rw [filterAll_cons, (h.chain k _ v).outcome_bind fun r =>
        (h.filterAll resolved entries).elim (fun v => h.filterAll _ entries) r,
        Filter.chain_congr_of_blind hblind k c.getRaw (some resolved) none, KeyMap.lookup]
      by_cases hk : k = key
      · subst hk
        have hnone : KeyMap.lookup k entries = none := KeyMap.lookup_eq_none_of_lt hlt
        rw [if_pos rfl]
        change _ = Option.or (outcome (Filter.chain ⟨k, c.getRaw, none⟩ c.filters v) s) _
        cases outcome (Filter.chain ⟨k, c.getRaw, none⟩ c.filters v) s with
        | none =>
            change (outcome (c.filterAll resolved entries) s).get? k = _
            rw [ih hsorted, hnone]
            rfl
        | some w =>
            change (outcome (c.filterAll (resolved.insert k w) entries) s).get? k = _
            rw [ih hsorted, hnone, KeyMap.get?_insert_self]
            rfl
      · rw [if_neg hk]
        cases outcome (Filter.chain ⟨k, c.getRaw, none⟩ c.filters v) s with
        | none => exact ih hsorted resolved
        | some w =>
            change (outcome (c.filterAll (resolved.insert k w) entries) s).get? key = _
            rw [ih hsorted, KeyMap.get?_insert_of_ne resolved w hk]

theorem outcome_resolveAll {c : Context (StateM σ)} (h : c.Undisturbed) (s : σ) :
    outcome c.resolveAll.run s =
      match outcome (collect .empty c.providers).run s with
      | .error e => .error e
      | .ok raw => .ok (outcome (c.filterAll .empty raw.entries) s) := by
  rw [resolveAll, ExceptT.run_bind, (steady_collect h.listings .empty).outcome_bind]
  · cases outcome (collect .empty c.providers).run s with
    | error e => rfl
    | ok raw => rfl
  · intro r
    cases r with
    | error e => exact .pure _
    | ok raw => exact (h.filterAll .empty raw.entries).lift

theorem outcome_resolve {c : Context (StateM σ)} (h : c.Undisturbed) (key : String) (s : σ) :
    outcome (c.resolve key) s = (c.providers.findSome? (·.answer? key s)).bind fun v =>
      outcome (Filter.chain ⟨key, c.getRaw, none⟩ c.filters v) s := by
  have hraw : Steady (c.getRaw key) := steady_firstAnswer key h.providers
  rw [resolve, hraw.outcome_bind, getRaw, outcome_firstAnswer key h.providers]
  · cases c.providers.findSome? (·.answer? key s) with
    | none => rfl
    | some v => rfl
  · intro r
    cases r with
    | none => exact .pure _
    | some v => exact h.chain key none v

omit [Setoid σ] in
/-- Leaving out providers that answer no sooner than one that stays leaves the first answer. -/
theorem findSome?_scannable {ps : List (Provider (StateM σ))} {key : String} {s : σ}
    (h : ∀ front p rest v, ps = front ++ p :: rest → p.scannable = false →
      p.answer key s = .ok (some v) →
        ∃ q ∈ front, q.scannable = true ∧ ∃ w, q.answer key s = .ok (some w)) :
    (ps.filter (·.scannable)).findSome? (·.answer? key s) = ps.findSome? (·.answer? key s) := by
  cases hfirst : ps.findSome? (·.answer? key s) with
  | none =>
      rw [List.findSome?_eq_none_iff] at *
      exact fun p hp => hfirst p (List.mem_filter.1 hp).1
  | some v =>
      obtain ⟨front, p, rest, rfl, hp, hfront⟩ := List.findSome?_eq_some_iff.1 hfirst
      have hscan : p.scannable = true := by
        cases hscan : p.scannable with
        | true => rfl
        | false =>
            obtain ⟨q, hq, -, w, hw⟩ :=
              h front p rest v rfl hscan (Provider.answer?_eq_some_iff.1 hp)
            rw [← Provider.answer?_eq_some_iff, hfront q hq] at hw
            cases hw
      rw [List.findSome?_eq_some_iff]
      refine ⟨front.filter (·.scannable), p, rest.filter (·.scannable), ?_, hp, ?_⟩
      · rw [List.filter_append, List.filter_cons_of_pos (by simpa using hscan)]
      · exact fun q hq => hfront q (List.mem_filter.1 hq).1

theorem sourceFailure_isSource (name : String) (e : ConfigError) :
    ∃ provider text cause, sourceFailure name e = .source provider text cause := by
  cases e with
  | source provider text cause => exact ⟨provider, text, cause, rfl⟩
  | _ => exact ⟨_, _, _, rfl⟩

theorem resolveAll_error {c : Context (StateM σ)} (h : c.Undisturbed) {s : σ} {e : ConfigError}
    (he : outcome c.resolveAll.run s = .error e) :
    ∃ front p rest e', c.providers = front ++ p :: rest ∧
      (∀ q ∈ front, q.scannable = true → ∃ m, q.listing s = .ok m) ∧
      p.scannable = true ∧ p.listing s = .error e' ∧ e = sourceFailure p.name e' := by
  rw [outcome_resolveAll h] at he
  cases hcollect : outcome (collect .empty c.providers).run s with
  | error e' =>
      rw [hcollect] at he
      cases he
      exact collect_error h.listings hcollect
  | ok raw =>
      rw [hcollect] at he
      cases he

theorem resolveAll_ok {c : Context (StateM σ)} (h : c.Undisturbed)
    (hblind : ∀ f ∈ c.filters, f.Blind) {s : σ}
    (hconsistent : ∀ p ∈ c.providers, p.scannable = true → p.Consistent s)
    {m : KeyMap PropertyValue} (hm : outcome c.resolveAll.run s = .ok m) :
    (∀ p ∈ c.providers, p.scannable = true → ∃ listed, p.listing s = .ok listed) ∧
      ∀ key, m.get? key =
        ((c.providers.filter (·.scannable)).findSome? (·.answer? key s)).bind fun v =>
          outcome (Filter.chain ⟨key, c.getRaw, none⟩ c.filters v) s := by
  rw [outcome_resolveAll h] at hm
  cases hcollect : outcome (collect .empty c.providers).run s with
  | error e =>
      rw [hcollect] at hm
      cases hm
  | ok raw =>
      rw [hcollect] at hm
      cases hm
      obtain ⟨hlisted, hget⟩ := collect_ok h.listings hconsistent hcollect
      refine ⟨hlisted, fun key => ?_⟩
      rw [get?_filterAll h hblind s raw.sorted]
      change ((raw.get? key).bind _).or none = _
      rw [hget, Option.or_none]
      rfl

/-- An enumeration fails exactly if a listing fails, with the failure of the first such provider as
a failure of a source. Otherwise it shows under each key the value of the first listed provider that
has one, after the filters; a look-up shows the same unless a provider that is not listed has a
value before all listed ones. -/
theorem resolveAll_agrees (c : Context (StateM σ)) (s : σ) (hsteady : c.Undisturbed)
    (hblind : ∀ f ∈ c.filters, f.Blind)
    (hconsistent : ∀ p ∈ c.providers, p.scannable = true → p.Consistent s) :
    ((∃ e, outcome c.resolveAll.run s = .error e) ↔
      ∃ p ∈ c.providers, p.scannable = true ∧ ∃ e, p.listing s = .error e) ∧
    (∀ e, outcome c.resolveAll.run s = .error e →
      (∃ provider text cause, e = .source provider text cause) ∧ e.isConfigFailure = true ∧
      ∃ front p rest e', c.providers = front ++ p :: rest ∧
        (∀ q ∈ front, q.scannable = true → ∃ m, q.listing s = .ok m) ∧
        p.scannable = true ∧ p.listing s = .error e' ∧ e = sourceFailure p.name e') ∧
    ∀ m, outcome c.resolveAll.run s = .ok m → ∀ key,
      m.get? key = ((c.providers.filter (·.scannable)).findSome? (·.answer? key s)).bind (fun v =>
        outcome (c.filters.foldlM (fun v (f : Filter (StateM σ)) =>
          OptionT.mk (f.apply ⟨key, c.getRaw, none⟩ v)) v).run s) ∧
      ((∀ front p rest v, c.providers = front ++ p :: rest → p.scannable = false →
        p.answer key s = .ok (some v) →
          ∃ q ∈ front, q.scannable = true ∧ ∃ w, q.answer key s = .ok (some w)) →
        m.get? key = outcome (c.resolve key) s) := by
  refine ⟨⟨?_, ?_⟩, ?_, ?_⟩
  · rintro ⟨e, he⟩
    obtain ⟨front, p, rest, e', hsplit, -, hscan, hlisting, -⟩ := resolveAll_error hsteady he
    exact ⟨p, hsplit ▸ List.mem_append_right front List.mem_cons_self, hscan, e', hlisting⟩
  · rintro ⟨p, hp, hscan, e, he⟩
    cases hresult : outcome c.resolveAll.run s with
    | error e => exact ⟨e, rfl⟩
    | ok m =>
        obtain ⟨listed, hlisted⟩ := (resolveAll_ok hsteady hblind hconsistent hresult).1 p hp hscan
        cases he.symm.trans hlisted
  · intro e he
    obtain ⟨front, p, rest, e', hsplit, hfront, hscan, hlisting, rfl⟩ :=
      resolveAll_error hsteady he
    have hsource := sourceFailure_isSource p.name e'
    refine ⟨hsource, ?_, front, p, rest, e', hsplit, hfront, hscan, hlisting, rfl⟩
    obtain ⟨provider, text, cause, heq⟩ := hsource
    rw [heq]
    rfl
  · intro m hm key
    have hvalue := (resolveAll_ok hsteady hblind hconsistent hm).2 key
    refine ⟨?_, fun hfirst => ?_⟩
    · simpa only [Filter.chain_eq_foldlM] using hvalue
    · rw [hvalue, findSome?_scannable hfirst, outcome_resolve hsteady]

end Context

namespace Sample

/-- A context in which a provider that is not listed stands before one that is. -/
def guarded : Context Act where
  tag := 2
  providers := [(MemoryProvider.mk 0 "vault" 100 false true none).toProvider, fixed 1 "fixed"]
  filters := [upper]
  converters := []

theorem undisturbed_guarded :
    letI := World.alike fun _ _ _ => .ok .empty
    guarded.Undisturbed := by
  let := World.alike fun _ _ _ => .ok .empty
  have hvault :=
    MemoryProvider.steady (fun _ _ _ => .ok .empty) ⟨0, "vault", 100, false, true, none⟩
  have hfixed : (fixed 1 "fixed" : Provider Act).Steady ∧ _ := steady_fixed 1 "fixed"
  refine ⟨?_, ?_, ?_⟩
  · exact List.forall_mem_cons.2 ⟨hvault.1, List.forall_mem_singleton.2 hfixed.1⟩
  · exact List.forall_mem_cons.2 ⟨hvault.2, List.forall_mem_singleton.2 hfixed.2⟩
  · exact List.forall_mem_singleton.2 fun _ _ _ => .pure _

theorem consistent_fixed (tag : Tag) (s : σ) :
    (fixed tag "fixed" : Provider (StateM σ)).Consistent s := by
  intro m hm key
  obtain rfl :
      KeyMap.empty.insert "fixed.key" ⟨"fixed.key", some "fixed-value", "fixed", .empty⟩ = m :=
    Except.ok.inj hm
  rw [KeyMap.get?_insert, Provider.answer, get_fixed]
  by_cases hkey : key = "fixed.key"
  · subst hkey
    rfl
  · rw [if_neg hkey, if_neg (Ne.symm hkey)]
    rfl

/-- The guarded context lists the fixed entry as a look-up shows it, and keeps the vault's own entry
to look-ups. -/
theorem guarded_agrees :
    let w := (World.initial "/").setMemory 0 (.ofList [("password", some "secret")])
    ∃ m, outcome guarded.resolveAll.run w = .ok m ∧
      m.get? "fixed.key" = outcome (guarded.resolve "fixed.key") w ∧ m.get? "password" = none := by
  intro w
  let := World.alike fun _ _ _ => .ok .empty
  have hblind : ∀ f ∈ guarded.filters, f.Blind := List.forall_mem_singleton.2 fun _ _ _ _ _ => rfl
  have hconsistent : ∀ p ∈ guarded.providers, p.scannable = true → p.Consistent w :=
    List.forall_mem_cons.2 ⟨nofun, List.forall_mem_singleton.2 fun _ => consistent_fixed 1 w⟩
  obtain ⟨herror, -, hok⟩ := guarded.resolveAll_agrees w undisturbed_guarded hblind hconsistent
  have hlisted : ∀ p ∈ guarded.providers, p.scannable = true → ∃ m, p.listing w = .ok m :=
    List.forall_mem_cons.2 ⟨nofun, List.forall_mem_singleton.2 fun _ => ⟨_, rfl⟩⟩
  have hsilent : ∀ p ∈ guarded.providers, p.scannable = false → p.answer? "fixed.key" w = none :=
    List.forall_mem_cons.2 ⟨fun _ => by decide, List.forall_mem_singleton.2 nofun⟩
  cases hresult : outcome guarded.resolveAll.run w with
  | error e =>
      obtain ⟨p, hp, hscan, e, he⟩ := herror.1 ⟨e, hresult⟩
      obtain ⟨m, hm⟩ := hlisted p hp hscan
      cases he.symm.trans hm
  | ok m =>
      refine ⟨m, rfl, (hok m hresult "fixed.key").2 ?_, (hok m hresult "password").1⟩
      intro front p rest v hsplit hscan hv
      have hp : p ∈ guarded.providers := hsplit ▸ List.mem_append_right front List.mem_cons_self
      rw [← Provider.answer?_eq_some_iff, hsilent p hp hscan] at hv
      cases hv

end Sample

end LayeredConfig
