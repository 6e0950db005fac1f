import LayeredConfig.Proofs.Change.Lifecycle
import LayeredConfig.Proofs.Provider.Opening

/-!
The effect of a request. Whatever is staged in it, in whatever order, its changes do to every map
what the same calls do to the map when they are performed on it one after another; and so does a
commit on a memory provider, to the payloads that are there and to the absent ones alike.
-/

namespace LayeredConfig

variable {β σ : Type}

def RequestCall.Stages (call : RequestCall) : Prop := call.changes?.isSome = true

instance : DecidablePred RequestCall.Stages := fun call =>
  inferInstanceAs (Decidable (call.changes?.isSome = true))

/-- A call performed on a map itself, which keeps texts as `payload` says. A batch with an empty key
is refused as a whole. -/
def RequestCall.performOn (payload : String → β) (target : KeyMap β) : RequestCall → KeyMap β
  | .put key value => if key = "" then target else target.insert key (payload value)
  | .putAll entries =>
      if "" ∈ entries.map (·.1) then target
      else entries.foldl (fun t e => t.insert e.1 (payload e.2)) target
  | .remove keys | .removeAll keys => if "" ∈ keys then target else keys.foldl .erase target
  | .commit | .cancel | .look => target

theorem RequestCall.performOn_eq (payload : String → β) (target : KeyMap β) {call : RequestCall}
    {changes : List Mutation} (hchanges : call.changes? = some changes) :
    call.performOn payload target = if "" ∈ changes.map (·.key) then target
      else changes.foldl (Mutation.writeTo payload) target := by
  cases call with
  | put key value =>
      cases hchanges
      simp only [performOn, List.map_cons, List.map_nil, List.mem_singleton, Mutation.key,
        eq_comm (a := ""), List.foldl_cons, List.foldl_nil, Mutation.writeTo]
  | putAll entries =>
      cases hchanges
      rw [List.map_map, List.foldl_map]
      rfl
  | remove keys | removeAll keys =>
      cases hchanges
      have hkeys : (keys.map Mutation.remove).map (·.key) = keys := by
        rw [List.map_map]
        exact List.map_id keys
      rw [hkeys, List.foldl_map]
      rfl
  | commit | cancel | look => cases hchanges

theorem Mutation.get?_foldl_writeTo (payload : String → β) {changes : List Mutation} {key : String}
    (h : ∀ change ∈ changes, change.key ≠ key) (target : KeyMap β) :
    (changes.foldl (Mutation.writeTo payload) target).get? key = target.get? key := by
  have homits := (ChangeSet.Omits.empty key).foldl_stage h
  have hstaged := ChangeSet.writeTo_foldl_stage payload changes .empty target
  rw [ChangeSet.writeTo_empty] at hstaged
  rw [← hstaged]
  exact homits.get?_writeTo payload target

theorem RequestCall.get?_performOn (payload : String → β) {call : RequestCall} {key : String}
    (h : ¬ call.Names key) (target : KeyMap β) :
    (call.performOn payload target).get? key = target.get? key := by
  cases hchanges : call.changes? with
  | none =>
      cases call with
      | commit | cancel | look => rfl
      | _ => cases hchanges
  | some changes =>
      rw [performOn_eq payload target hchanges]
      split
      · rfl
      · refine Mutation.get?_foldl_writeTo payload ?_ target
        intro change hmem hkey
        exact h ⟨changes, hchanges, change, hmem, hkey⟩

theorem ChangeSet.present_writeTo (c : ChangeSet) (content : KeyMap (Option β))
    (payload : String → β) :
    (c.writeTo (some ∘ payload) content).present = c.writeTo payload content.present := by
  apply KeyMap.ext_get?
  intro k
  rw [KeyMap.present, KeyMap.get?_filterMap, get?_writeTo, get?_writeTo, KeyMap.present,
    KeyMap.get?_filterMap]
  cases c.puts.get? k with
  | some value => rfl
  | none =>
      cases c.removals.contains k with
      | true => rfl
      | false => rfl

namespace ChangeRequest

variable {r r' start : ChangeRequest (StateM σ)} {s t : σ}
  {steps : List (Step (ChangeRequest (StateM σ)) RequestCall σ)}

/-- What a staging call does to an open request, it does to whatever the request will write. -/
theorem Turn.staging {call : RequestCall} {result : Except ConfigError Unit}
    (h : Turn r s call result r' t) (hopen : r.state = .opened) (hstages : call.Stages) :
    r'.state = .opened ∧ r'.persist = r.persist ∧
      ∀ {β : Type} (payload : String → β) (target : KeyMap β),
        r'.changes.writeTo payload target =
          call.performOn payload (r.changes.writeTo payload target) := by
  cases h with
  | looked => cases hstages
  | cancelled _ => cases hstages
  | committed _ _ => cases hstages
  | failed _ _ => cases hstages
  | closed hclosed _ => exact absurd hopen (isClosed_iff.1 hclosed)
  | unnamed _ hempty =>
      obtain ⟨changes, hchanges, change, hmem, hkey⟩ := hempty
      have hrefused : "" ∈ changes.map (·.key) := List.mem_map.2 ⟨change, hmem, hkey⟩
      refine ⟨hopen, rfl, ?_⟩
      intro β payload target
      rw [RequestCall.performOn_eq payload _ hchanges, if_pos hrefused]
  | @staged _ changes _ hchanges hkeys =>
      have hnamed : "" ∉ changes.map (·.key) := by
        intro hempty
        obtain ⟨change, hmem, hkey⟩ := List.mem_map.1 hempty
        exact hkeys change hmem hkey
      refine ⟨hopen, rfl, ?_⟩
      intro β payload target
      rw [RequestCall.performOn_eq payload _ hchanges, if_neg hnamed]
      exact ChangeSet.writeTo_foldl_stage payload changes r.changes target

def performAllOn (payload : String → β)
    (steps : List (Step (ChangeRequest (StateM σ)) RequestCall σ)) (target : KeyMap β) :
    KeyMap β :=
  (steps.map (·.call)).foldl (RequestCall.performOn payload) target

theorem staging_of_run (h : Run perform start steps r) (hopen : start.state = .opened)
    (hempty : start.changes = .empty) (hstages : ∀ step ∈ steps, step.call.Stages) :
    r.state = .opened ∧ r.persist = start.persist ∧
      ∀ {β : Type} (payload : String → β) (target : KeyMap β),
        r.changes.writeTo payload target = performAllOn payload steps target := by
  induction h with
  | nil =>
      refine ⟨hopen, rfl, ?_⟩
      intro β payload target
      rw [hempty]
      rfl
  | @snoc steps r found call result next left _ hstep ih =>
      obtain ⟨hearlier, hlast⟩ := List.forall_mem_append.1 hstages
      obtain ⟨hstill, hpersist, heffect⟩ := ih hearlier
      obtain ⟨hnext, hsame, hcall⟩ :=
        (turn_of_perform hstep).staging hstill (hlast _ (List.mem_singleton.2 rfl))
      refine ⟨hnext, hsame.trans hpersist, ?_⟩
      intro β payload target
      rw [hcall, heffect, performAllOn, performAllOn, List.map_append, List.foldl_append]
      rfl

theorem get?_performAllOn (payload : String → β) {key : String}
    (h : ∀ step ∈ steps, ¬ step.call.Names key) (target : KeyMap β) :
    (performAllOn payload steps target).get? key = target.get? key := by
  induction steps generalizing target with
  | nil => rfl
  | cons step steps ih =>
      obtain ⟨hstep, hsteps⟩ := List.forall_mem_cons.1 h
      exact (ih hsteps _).trans (step.call.get?_performOn payload hstep target)

/-- Whatever calls stage changes in a request, one after another, and with whatever success: the
staged changes do to every map what the calls do when they are performed on it, and the keys that no
call names keep their values. A commit on a memory provider does the same to its content, and so to
the payloads that are present; what the provider holds under the keys that no call names stays there,
be it an absent payload. -/
theorem staged_performed :
    (∀ {σ : Type} (start r : ChangeRequest (StateM σ))
        (steps : List (Step (ChangeRequest (StateM σ)) RequestCall σ)),
      start.state = .opened → start.changes = .empty → Run perform start steps r →
      (∀ step ∈ steps, step.call.Stages) → ∀ target : KeyMap String,
        r.changes.applyTo target = performAllOn id steps target ∧
        ∀ key, (∀ step ∈ steps, ¬ step.call.Names key) →
          (r.changes.applyTo target).get? key = target.get? key) ∧
    (∀ (p : MemoryProvider) (w : World) (start r : ChangeRequest Act)
        (steps : List (Step (ChangeRequest Act) RequestCall World)),
      outcome p.openRequest.run w = .ok start → Run perform start steps r →
      (∀ step ∈ steps, step.call.Stages) → ∀ found : World,
        ∃ left, (r.perform .commit).run found = ((.ok (), r.close .committed), left) ∧
          left.memory p.tag = performAllOn some steps (found.memory p.tag) ∧
          (left.memory p.tag).present = performAllOn id steps (found.memory p.tag).present ∧
          ∀ key, (∀ step ∈ steps, ¬ step.call.Names key) →
            p.held key left = p.held key found) := by
  constructor
  · intro σ start r steps hopen hempty hrun hstages target
    obtain ⟨-, -, heffect⟩ := staging_of_run hrun hopen hempty hstages
    have happly : r.changes.applyTo target = performAllOn id steps target := by
      rw [ChangeSet.applyTo_eq_writeTo, heffect]
    refine ⟨happly, ?_⟩
    intro key hkey
    rw [happly]
    exact get?_performAllOn id hkey target
  · intro p w start r steps hstart hrun hstages found
    obtain ⟨uri, -, rfl⟩ := MemoryProvider.eq_create_of_openRequest hstart
    obtain ⟨hopen, hpersist, heffect⟩ := staging_of_run hrun rfl rfl hstages
    have hcommit : (r.persist r.changes).run.run found =
        (.ok (), found.setMemory p.tag (r.changes.writeTo some (found.memory p.tag))) := by
      rw [hpersist]
      rfl
    refine ⟨found.setMemory p.tag (r.changes.writeTo some (found.memory p.tag)), ?_, ?_, ?_, ?_⟩
    · rw [run_commit hopen, hcommit]
    · rw [World.memory_setMemory, if_pos rfl, heffect]
    · rw [World.memory_setMemory, if_pos rfl, ← heffect]
      exact ChangeSet.present_writeTo r.changes _ id
    · intro key hkey
      rw [MemoryProvider.held, World.memory_setMemory, if_pos rfl, heffect]
      exact get?_performAllOn some hkey _

end ChangeRequest

namespace Sample

def shed : MemoryProvider := ⟨0, "shed", 0, true, true, none⟩

/-- Puts and removals take turns on one key, a batch with an empty key is refused as a whole, and
the absent payload of a key that no call names stays where it is. -/
theorem shed_committed :
    let found := (World.initial "/").setMemory 0
      (.ofList [("a", some "old"), ("b", none), ("c", some "kept"), ("d", none)])
    let staged := performAll ChangeRequest.perform (.create 0 "memory:shed" shed.persist) found
      [.put "a" "1", .remove ["a", "b"], .putAll [("a", "2"), ("b", "3"), ("a", "4")],
        .putAll [("c", "5"), ("", "6")], .removeAll ["b"]]
    let left := (staged.2.1.perform .commit).run found
    (left.2.memory 0).entries = [("a", some "4"), ("c", some "kept"), ("d", none)] ∧
      (left.2.memory 0).present.entries = [("a", "4"), ("c", "kept")] ∧
      (staged.2.1.changes.applyTo (.ofList [("b", "x"), ("z", "y")])).entries =
        [("a", "4"), ("z", "y")] := by
  intro found staged left
  have hrun : Run ChangeRequest.perform (.create 0 "memory:shed" shed.persist) staged.1
      staged.2.1 := run_performAll _ _ _ _
  have hopen : outcome shed.openRequest.run (World.initial "/") =
      .ok (.create 0 "memory:shed" shed.persist) := rfl
  have hstages : ∀ step ∈ staged.1, step.call.Stages := by decide +kernel
  obtain ⟨hchanges, hcommits⟩ := ChangeRequest.staged_performed
  obtain ⟨happly, -⟩ := hchanges _ _ staged.1 rfl rfl hrun hstages (.ofList [("b", "x"), ("z", "y")])
  obtain ⟨left', hleft, hmemory, hpresent, -⟩ := hcommits _ _ _ _ staged.1 hopen hrun hstages found
  have hsame : left.2 = left' := congrArg (·.2) hleft
  rw [hsame, happly]
  change (left'.memory shed.tag).entries = _ ∧ (left'.memory shed.tag).present.entries = _ ∧ _
  rw [hpresent, hmemory]
  exact ⟨rfl, rfl, rfl⟩

end Sample

end LayeredConfig
