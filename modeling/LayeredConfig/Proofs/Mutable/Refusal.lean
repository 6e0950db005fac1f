import LayeredConfig.Proofs.Mutable.Store
import Mathlib.Data.List.Sort

/-!
Calls that fail. An empty key is refused before anything is staged. A provider that cannot open its
request ends a call half way: what the call has staged with other providers before stays staged, so
a failure changes nothing only if nothing new has been routed before it.
-/

namespace LayeredConfig

variable {m : Type → Type} {σ : Type}

namespace Mutable

variable {mc next : Mutable (StateM σ)}

theorem eq_of_request? {l l' : List (Nat × ChangeRequest (StateM σ))} (h : Ordered l)
    (h' : Ordered l') (hsame : ∀ i, request? i l = request? i l') : l = l' := by
  have : Std.Irrefl fun p q : Nat × ChangeRequest (StateM σ) => p.1 < q.1 :=
    ⟨fun p => Nat.lt_irrefl p.1⟩
  refine List.Pairwise.eq_of_mem_iff h h' fun q => ?_
  rw [← request?_eq_some_iff h, ← request?_eq_some_iff h', hsame]

def AlreadyStaged (mc : Mutable m) (routes : List (Nat × Mutation)) : Prop :=
  ∀ i, changesAt i routes ≠ [] → ∃ r, request? i mc.requests = some r ∧
    (changesAt i routes).foldl .stage r.changes = r.changes

theorem TakesAll.eq_iff {routes : List (Nat × Mutation)} (h : TakesAll mc routes next)
    (hsound : mc.Sound) : next = mc ↔ mc.AlreadyStaged routes := by
  constructor
  · rintro rfl i hsome
    rcases h.request?_eq i with ⟨hnil, -⟩ | ⟨-, s, r, hr, hrequest⟩
    · exact absurd hnil hsome
    · rw [requestFor_of_some hrequest] at hr
      have hsame : r.staging (changesAt i routes) = r := Except.ok.inj hr
      exact ⟨r, hrequest.trans (congrArg some hsame), congrArg ChangeRequest.changes hsame⟩
  · intro hstaged
    have hrequests : next.requests = mc.requests := by
      refine eq_of_request? (hsound.takesAll h).ordered hsound.ordered fun i => ?_
      rcases h.request?_eq i with ⟨-, hsame⟩ | ⟨hsome, s, r, hr, hrequest⟩
      · exact hsame
      · obtain ⟨r', hr', hchanges⟩ := hstaged i hsome
        rw [requestFor_of_some hr'] at hr
        cases hr
        rw [hrequest, hr', ChangeRequest.staging, hchanges]
    exact h.frame.eq_of_requests hrequests

/-- A call fails for an empty key, and changes nothing, or with the first provider on its way that
has no request yet and fails to open one. Then exactly the changes that were routed before are
staged, so that everything is as it was only if there are none, or none that is new. -/
theorem failing_call {c : Configuration (StateM σ)}
    (hfresh : ∀ p ∈ c.context.providers, p.OpensFresh) (correlation : Tag) (policy : Policy)
    {steps : List (Step (Mutable (StateM σ)) MutableCall σ)}
    (h : Run perform (create correlation c policy) steps mc) {call : MutableCall} {s t : σ}
    {e : ConfigError} (hrun : (mc.perform call).run s = ((.error e, next), t)) :
    call.NamesEmpty ∧ e = .argument .emptyKey ∧ next = mc ∨
    ¬ call.NamesEmpty ∧ ∃ front i change back,
      mc.routes call.changes = front ++ (i, change) :: back ∧
      request? i mc.requests = none ∧ (∃ u, outcome (mc.requestFor i).run u = .error e) ∧
      (next = mc ↔ mc.AlreadyStaged front) ∧
      ∀ j, changesAt j front = [] ∧ request? j next.requests = request? j mc.requests ∨
        changesAt j front ≠ [] ∧ ∃ u r, outcome (mc.requestFor j).run u = .ok r ∧
          request? j next.requests = some (r.staging (changesAt j front)) := by
  have hsound : mc.Sound := (sound_of_run hfresh h).1
  cases turn_of_perform hsound hrun with
  | unnamed hempty => exact .inl ⟨hempty, rfl, rfl⟩
  | staged hnamed hstaged =>
      cases hstaged with
      | @stuck front i change back _ _ hsplit hfront hfail =>
          obtain ⟨u, hu⟩ := hfail
          have hnone : request? i next.requests = none := by
            refine Option.eq_none_iff_forall_ne_some.2 fun r hr => ?_
            rw [requestFor_of_some hr] at hu
            cases hu
          have hsame : request? i next.requests = request? i mc.requests := by
            rcases hfront.request?_eq i with ⟨-, hsame⟩ | ⟨-, u, r, -, hsome⟩
            · exact hsame
            · cases hnone.symm.trans hsome
          have hfor : next.requestFor i = mc.requestFor i :=
            requestFor_congr hsame hfront.frame.writables hfront.frame.correlation
          exact .inr ⟨hnamed, front, i, change, back, hsplit, hsame ▸ hnone, ⟨u, hfor ▸ hu⟩,
            hfront.eq_iff hsound, hfront.request?_eq⟩

end Mutable

namespace Sample

/-- A name that gives no address of a backend. -/
def nameless : MemoryProvider := ⟨1, "//[", 10, true, true, none⟩

/-- A change that goes to the second backend alone leaves nothing behind when it fails. -/
theorem nameless_put_refused :
    let mc := Mutable.create 4 (backed [high, nameless]) (.custom 3 fun _ _ => [1])
    let answer := (mc.perform (.put "k" "v")).run (World.initial "/")
    answer.1 = (.error (.argument (.noBackend "//[" .badIpv6)), mc) := by
  intro mc answer
  have hrun : answer =
      ((.error (.argument (.noBackend "//[" .badIpv6)), answer.1.2), answer.2) := rfl
  rcases Mutable.failing_call (opensFresh_backed _) 4 _ .nil hrun with
    ⟨⟨change, hmem, hkey⟩, -⟩ | ⟨-, front, i, change, back, hsplit, -, -, hsame, -⟩
  · cases List.mem_singleton.1 hmem
    exact absurd hkey (by decide)
  · have hlength : 1 = _ := congrArg List.length hsplit
    rw [List.length_append, List.length_cons] at hlength
    obtain rfl : front = [] := List.eq_nil_of_length_eq_zero (by omega)
    exact Prod.ext rfl (hsame.2 fun j hsome => absurd rfl hsome)

/-- A change that goes to both backends stays staged with the first one when it fails with the
second one, and a store then changes the first backend. -/
theorem nameless_put_stays :
    let run := performAll Mutable.perform (Mutable.create 4 (backed [high, nameless]) .all)
      (World.initial "/") [.put "k" "v"]
    run.1.map (fun step => (step.object.requests.length, step.result)) =
        [(0, .error (.argument (.noBackend "//[" .badIpv6)))] ∧
      run.2.1.requests.map (·.2.changes) = [ChangeSet.empty.put "k" "v"] ∧
      ∃ t, run.2.1.store.run.run run.2.2 = (.ok ["memory:high"], t) ∧
        (t.memory high.tag).get? "k" = some (some "v") := by
  intro run
  have hsound : run.2.1.Sound :=
    (Mutable.sound_of_run (opensFresh_backed _) (run_performAll _ _ _ _)).1
  have hstored : run.2.1.store.run.run run.2.2 = (.ok ["memory:high"], _) :=
    (Mutable.commitAll_eq_ok_iff (List.forall_mem_map.2 hsound.opened)).2 ⟨rfl, .cons rfl .nil⟩
  exact ⟨rfl, rfl, _, hstored, rfl⟩

end Sample

end LayeredConfig
