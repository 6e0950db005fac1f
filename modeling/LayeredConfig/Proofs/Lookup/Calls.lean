import LayeredConfig.Proofs.Lookup.Enumeration

/-!
What filters see of an enumeration. Entries are filtered in the order of their keys, so the entries
that are filtered before one of them are those of the final result below its key, whatever the
filters hide or change (`Underway`). That the calls are all that are made is told by other filters:
those that answer the calls alike make the same enumeration (`run_resolveAll_mapIdx`).
-/

namespace LayeredConfig

variable {σ β : Type}

namespace KeyMap

/-- The entries whose keys stand before a key. -/
def below (m : KeyMap β) (key : String) : KeyMap β := m.filter fun k _ => decide (k < key)

theorem get?_below (m : KeyMap β) (key k : String) :
    (m.below key).get? k = if k < key then m.get? k else none := by
  rw [below, get?_filter]
  cases m.get? k with
  | none => exact (ite_self none).symm
  | some v => simp [Option.filter_some]

@[simp] theorem below_empty (key : String) : (empty : KeyMap β).below key = empty := rfl

theorem below_insert_of_not_lt {key k : String} (h : ¬ key < k) (m : KeyMap β) (value : β) :
    (m.insert key value).below k = m.below k := by
  apply ext_get?
  intro k'
  rw [get?_below, get?_below]
  split
  · rename_i hk'
    have hne : key ≠ k' := by
      rintro rfl
      exact h hk'
    rw [get?_insert_of_ne m value hne]
  · rfl

theorem below_insert_of_lt {key k : String} (h : key < k) (m : KeyMap β) (value : β) :
    (m.insert key value).below k = (m.below k).insert key value := by
  apply ext_get?
  intro k'
  rw [get?_below, get?_insert, get?_insert, get?_below]
  by_cases hk' : key = k'
  · subst hk'
    rw [if_pos h, if_pos rfl, if_pos rfl]
  · rw [if_neg hk', if_neg hk']

def extend (m : KeyMap β) (key : String) (value : Option β) : KeyMap β :=
  value.elim m (m.insert key)

theorem below_extend_of_not_lt {key k : String} (h : ¬ key < k) (m : KeyMap β)
    (value : Option β) : (m.extend key value).below k = m.below k := by
  cases value with
  | none => rfl
  | some value => exact below_insert_of_not_lt h m value

theorem below_extend_of_lt {key k : String} (h : key < k) (m : KeyMap β) (value : Option β) :
    (m.extend key value).below k = (m.below k).extend key value := by
  cases value with
  | none => rfl
  | some value => exact below_insert_of_lt h m value

end KeyMap

namespace Filter

/-- A call of a filter: the number of filters before it, the filter, and what it is given. -/
structure Call (σ : Type) where
  position : Nat
  filter : Filter (StateM σ)
  context : FilterContext (StateM σ)
  value : PropertyValue

def Call.later (call : Call σ) : Call σ := { call with position := call.position + 1 }

/-- The calls that a chain of filters makes in a state. -/
def calls (ctx : FilterContext (StateM σ)) :
    List (Filter (StateM σ)) → PropertyValue → σ → List (Call σ)
  | [], _, _ => []
  | f :: fs, v, s =>
    ⟨0, f, ctx, v⟩ ::
      match outcome (f.apply ctx v) s with
      | some w => (calls ctx fs w (after (f.apply ctx v) s)).map Call.later
      | none => []

theorem of_mem_calls {ctx : FilterContext (StateM σ)} {filters : List (Filter (StateM σ))}
    {v : PropertyValue} {s : σ} :
    ∀ call ∈ calls ctx filters v s,
      filters[call.position]? = some call.filter ∧ call.context = ctx := by
  induction filters generalizing v s with
  | nil => exact nofun
  | cons f filters ih =>
      rw [calls]
      refine List.forall_mem_cons.2 ⟨⟨rfl, rfl⟩, ?_⟩
      cases outcome (f.apply ctx v) s with
      | none => exact nofun
      | some w => exact List.forall_mem_map.2 ih

/-- Whether other filters in place of some answer a call alike. -/
def Call.Kept (g : Nat → Filter (StateM σ) → Filter (StateM σ)) (call : Call σ) : Prop :=
  (g call.position call.filter).apply call.context call.value =
    call.filter.apply call.context call.value

theorem run_chain_mapIdx {ctx : FilterContext (StateM σ)} {filters : List (Filter (StateM σ))}
    {g : Nat → Filter (StateM σ) → Filter (StateM σ)} {v : PropertyValue} {s : σ}
    (h : ∀ call ∈ calls ctx filters v s, call.Kept g) :
    (chain ctx (filters.mapIdx g) v).run s = (chain ctx filters v).run s := by
  induction filters generalizing g v s with
  | nil => rfl
  | cons f filters ih =>
      rw [calls] at h
      obtain ⟨hf, hfilters⟩ := List.forall_mem_cons.1 h
      have hanswer : (g 0 f).apply ctx v = f.apply ctx v := hf
      rw [List.mapIdx_cons, chain, chain, hanswer, run_bind, run_bind]
      cases hw : outcome (f.apply ctx v) s with
      | none => rfl
      | some w =>
          rw [hw] at hfilters
          -- A filter behind the first one stands one place earlier among those that are left.
          exact ih fun call hcall => hfilters call.later (List.mem_map_of_mem hcall)

end Filter

namespace Context

/-- The calls of filters that filtering some entries makes in a state. -/
def callsAmong (c : Context (StateM σ)) (resolved : KeyMap PropertyValue) :
    List (String × PropertyValue) → σ → List (Filter.Call σ)
  | [], _ => []
  | (key, v) :: entries, s =>
    let ctx := ⟨key, c.getRaw, some resolved⟩
    let filtered := Filter.chain ctx c.filters v
    Filter.calls ctx c.filters v s ++
      callsAmong c (resolved.extend key (outcome filtered s)) entries (after filtered s)

/-- The calls of filters that an enumeration makes in a state. -/
def calls (c : Context (StateM σ)) (s : σ) : List (Filter.Call σ) :=
  let collected := (collect .empty c.providers).run
  match outcome collected s with
  | .ok raw => c.callsAmong .empty raw.entries (after collected s)
  | .error _ => []

theorem run_filterAll_cons (c : Context (StateM σ)) (resolved : KeyMap PropertyValue)
    (key : String) (v : PropertyValue) (entries : List (String × PropertyValue)) (s : σ) :
    let filtered := Filter.chain ⟨key, c.getRaw, some resolved⟩ c.filters v
    (c.filterAll resolved ((key, v) :: entries)).run s =
      (c.filterAll (resolved.extend key (outcome filtered s)) entries).run (after filtered s) := by
  intro filtered
  rw [filterAll_cons, run_bind]
  cases outcome filtered s with
  | none => rfl
  | some w => rfl

theorem outcome_filterAll_cons (c : Context (StateM σ)) (resolved : KeyMap PropertyValue)
    (key : String) (v : PropertyValue) (entries : List (String × PropertyValue)) (s : σ) :
    let filtered := Filter.chain ⟨key, c.getRaw, some resolved⟩ c.filters v
    outcome (c.filterAll resolved ((key, v) :: entries)) s =
      outcome (c.filterAll (resolved.extend key (outcome filtered s)) entries) (after filtered s) :=
  congrArg (·.1) (run_filterAll_cons c resolved key v entries s)

theorem below_filterAll {c : Context (StateM σ)} {key : String}
    {entries : List (String × PropertyValue)} (h : ∀ e ∈ entries, ¬ e.1 < key)
    (resolved : KeyMap PropertyValue) (s : σ) :
    (outcome (c.filterAll resolved entries) s).below key = resolved.below key := by
  induction entries generalizing resolved s with
  | nil => rfl
  | cons e entries ih =>
      obtain ⟨k, v⟩ := e
      obtain ⟨hk, hentries⟩ := List.forall_mem_cons.1 h
      -- Hidden or not, the first entry adds nothing below the key.
      rw [outcome_filterAll_cons]
      exact (ih hentries _ _).trans (KeyMap.below_extend_of_not_lt hk resolved _)

/-- An enumeration between two entries: those that are still to be filtered increase in the key, and
what is filtered stands below each of them. -/
structure Underway (resolved : KeyMap PropertyValue) (entries : List (String × PropertyValue)) :
    Prop where
  sorted : entries.Pairwise fun a b => a.1 < b.1
  filtered : ∀ e ∈ entries, resolved.below e.1 = resolved

namespace Underway

variable {resolved : KeyMap PropertyValue} {key : String} {v : PropertyValue}
  {entries : List (String × PropertyValue)}

theorem start (raw : KeyMap PropertyValue) : Underway .empty raw.entries :=
  ⟨raw.sorted, fun e _ => KeyMap.below_empty e.1⟩

theorem next (h : Underway resolved ((key, v) :: entries)) (r : Option PropertyValue) :
    Underway (resolved.extend key r) entries := by
  obtain ⟨hlt, hsorted⟩ := List.pairwise_cons.1 h.sorted
  refine ⟨hsorted, fun e he => ?_⟩
  rw [KeyMap.below_extend_of_lt (hlt e he), h.filtered e (List.mem_cons_of_mem _ he)]

/-- The next entry finds what the result will have below its key. -/
theorem seen (h : Underway resolved ((key, v) :: entries)) (c : Context (StateM σ)) (s : σ) :
    (outcome (c.filterAll resolved ((key, v) :: entries)) s).below key = resolved := by
  obtain ⟨hlt, -⟩ := List.pairwise_cons.1 h.sorted
  have hlater : ∀ e ∈ (key, v) :: entries, ¬ e.1 < key :=
    List.forall_mem_cons.2 ⟨String.lt_irrefl key, fun e he => String.lt_asymm (hlt e he)⟩
  exact (below_filterAll hlater resolved s).trans (h.filtered _ List.mem_cons_self)

end Underway

theorem of_mem_callsAmong {c : Context (StateM σ)} {resolved : KeyMap PropertyValue}
    {entries : List (String × PropertyValue)} (h : Underway resolved entries) (s : σ) :
    ∀ call ∈ c.callsAmong resolved entries s,
      c.filters[call.position]? = some call.filter ∧
        call.context = ⟨call.context.key, c.getRaw,
          some ((outcome (c.filterAll resolved entries) s).below call.context.key)⟩ := by
  induction entries generalizing resolved s with
  | nil => exact nofun
  | cons e entries ih =>
      obtain ⟨key, v⟩ := e
      have hseen := h.seen c s
      rw [callsAmong]
      refine List.forall_mem_append.2 ⟨fun call hcall => ?_, ?_⟩
      · obtain ⟨hplace, hcontext⟩ := Filter.of_mem_calls call hcall
        rw [hcontext, hseen]
        exact ⟨hplace, rfl⟩
      · rw [outcome_filterAll_cons]
        exact ih (h.next _) _

def replaceFilters (c : Context (StateM σ)) (g : Nat → Filter (StateM σ) → Filter (StateM σ)) :
    Context (StateM σ) := { c with filters := c.filters.mapIdx g }

variable {c : Context (StateM σ)} {g : Nat → Filter (StateM σ) → Filter (StateM σ)}

theorem run_filterAll_mapIdx {resolved : KeyMap PropertyValue}
    {entries : List (String × PropertyValue)} {s : σ}
    (h : ∀ call ∈ c.callsAmong resolved entries s, call.Kept g) :
    ((c.replaceFilters g).filterAll resolved entries).run s =
      (c.filterAll resolved entries).run s := by
  induction entries generalizing resolved s with
  | nil => rfl
  | cons e entries ih =>
      obtain ⟨key, v⟩ := e
      obtain ⟨hentry, hentries⟩ := List.forall_mem_append.1 h
      have hchain : (Filter.chain ⟨key, (c.replaceFilters g).getRaw, some resolved⟩
          (c.replaceFilters g).filters v).run s =
            (Filter.chain ⟨key, c.getRaw, some resolved⟩ c.filters v).run s :=
        Filter.run_chain_mapIdx hentry
      rw [run_filterAll_cons, run_filterAll_cons, outcome, after, hchain]
      exact ih hentries

theorem exists_collected {s : σ} {result : KeyMap PropertyValue}
    (h : outcome c.resolveAll.run s = .ok result) :
    ∃ raw t, (collect .empty c.providers).run.run s = (.ok raw, t) ∧
      outcome (c.filterAll .empty raw.entries) t = result := by
  have hrun : c.resolveAll.run.run s = (.ok result, after c.resolveAll.run s) := Prod.ext h rfl
  obtain ⟨raw, t, hcollect, hfilter⟩ := exists_run_of_bind_ok hrun
  have hlift : (ExceptT.lift (c.filterAll .empty raw.entries) :
      ExceptT ConfigError (StateM σ) _).run.run t =
        (.ok (outcome (c.filterAll .empty raw.entries) t), after _ t) := run_lift rfl
  obtain ⟨hok, -⟩ := Prod.mk.inj (hlift.symm.trans hfilter)
  exact ⟨raw, t, hcollect, Except.ok.inj hok⟩

/-- An enumeration is the same with other filters that answer its calls alike. -/
theorem run_resolveAll_mapIdx {s : σ} (h : ∀ call ∈ c.calls s, call.Kept g) :
    (c.replaceFilters g).resolveAll.run.run s = c.resolveAll.run.run s := by
  cases hcollect : (collect .empty c.providers).run.run s with
  | mk collected t =>
      have hcollect' : (collect .empty (c.replaceFilters g).providers).run.run s = (collected, t) :=
        hcollect
      rw [calls, outcome, after, hcollect] at h
      rw [resolveAll, resolveAll]
      cases collected with
      | error e => rw [run_bind_of_error hcollect, run_bind_of_error hcollect']
      | ok raw =>
          rw [run_bind_of_ok hcollect, run_bind_of_ok hcollect']
          exact (run_lift (run_filterAll_mapIdx h)).trans (run_lift rfl).symm

/-- In an enumeration that succeeds, every call of a filter on a key is shown, as what is filtered
before, the entries of the result below this key. There are no other calls: filters that answer
these alike, put in the places of the filters, make the same enumeration. -/
theorem resolveAll_seen (c : Context (StateM σ)) (s : σ) {result : KeyMap PropertyValue}
    (h : outcome c.resolveAll.run s = .ok result) :
    (∀ call ∈ c.calls s, c.filters[call.position]? = some call.filter ∧
      call.context.raw = c.getRaw ∧
      call.context.resolved = some (result.below call.context.key)) ∧
    ∀ g : Nat → Filter (StateM σ) → Filter (StateM σ), (∀ call ∈ c.calls s, call.Kept g) →
      (c.replaceFilters g).resolveAll.run.run s = c.resolveAll.run.run s := by
  obtain ⟨raw, t, hcollect, hresult⟩ := exists_collected h
  refine ⟨?_, fun g hg => run_resolveAll_mapIdx hg⟩
  have hcalls : c.calls s = c.callsAmong .empty raw.entries t := by
    rw [calls, outcome, after, hcollect]
  rw [hcalls, ← hresult]
  intro call hcall
  obtain ⟨hplace, hshown⟩ := of_mem_callsAmong (.start raw) t call hcall
  exact ⟨hplace, congrArg (·.raw) hshown, congrArg (·.resolved) hshown⟩

end Context

namespace Sample

/-- A context whose filters hide what comes after some entry, and tell how far an enumeration has
come. -/
def tagged : Context Act where
  tag := 3
  providers := [(MemoryProvider.mk 0 "notes" 0 true false none).toProvider]
  filters := [dropIfResolved "b", tag]
  converters := []

/-- Of three entries two are changed, and the third one is hidden by the first filter, which is
shown both of them. -/
theorem tagged_seen :
    let w := (World.initial "/").setMemory 0
      (.ofList [("a", some "1"), ("b", some "2"), ("c", some "3")])
    let result := .ofList [("a", ⟨"a", some "1[a|bulk:0]", "notes", .empty⟩),
      ("b", ⟨"b", some "2[b|bulk:1]", "notes", .empty⟩)]
    outcome tagged.resolveAll.run w = .ok result ∧
      (tagged.calls w).map (fun call => (call.context.key, call.position)) =
        [("a", 0), ("a", 1), ("b", 0), ("b", 1), ("c", 0)] ∧
      ∀ call ∈ tagged.calls w, call.context.resolved = some (result.below call.context.key) := by
  intro w result
  have hresult : outcome tagged.resolveAll.run w = .ok result := rfl
  obtain ⟨hseen, -⟩ := tagged.resolveAll_seen w hresult
  exact ⟨hresult, rfl, fun call hcall => (hseen call hcall).2.2⟩

end Sample

end LayeredConfig
