import LayeredConfig.Change.ChangeSet

/-!
Staged changes. A change set keeps values and removals apart and applies the removals first; still
it does to every map what the staged changes do to it one after another.
-/

namespace LayeredConfig

variable {β : Type}

def Mutation.writeTo (payload : String → β) (target : KeyMap β) : Mutation → KeyMap β
  | .put key value => target.insert key (payload value)
  | .remove key => target.erase key

theorem KeyMap.get?_foldl_erase (keys : List String) (m : KeyMap β) (k : String) :
    (keys.foldl erase m).get? k = if k ∈ keys then none else m.get? k := by
  induction keys generalizing m with
  | nil => rfl
  | cons key keys ih =>
      rw [List.foldl_cons, ih, get?_erase]
      by_cases hk : k ∈ keys
      · simp [hk]
      · simp [hk, eq_comm]

theorem KeyMap.mem_keys_iff {m : KeyMap β} {k : String} : k ∈ m.keys ↔ m.contains k = true := by
  rw [contains, Option.isSome_iff_exists, keys, List.mem_map]
  constructor
  · rintro ⟨⟨k', v⟩, he, rfl⟩
    exact ⟨v, get?_eq_some_iff.2 he⟩
  · rintro ⟨v, hv⟩
    exact ⟨(k, v), get?_eq_some_iff.1 hv, rfl⟩

theorem KeyMap.erase_eq_self {m : KeyMap β} {key : String} (h : m.get? key = none) :
    m.erase key = m := by
  apply ext_get?
  intro k
  rw [get?_erase]
  split
  · rename_i hk
    rw [← hk, h]
  · rfl

namespace ChangeSet

/-- The staged changes, applied to a map that keeps texts as `payload` says. -/
def writeTo (payload : String → β) (c : ChangeSet) (target : KeyMap β) : KeyMap β :=
  (c.removals.keys.foldl KeyMap.erase target).insertAll
    (c.puts.entries.map fun e => (e.1, payload e.2))

theorem get?_writeTo (payload : String → β) (c : ChangeSet) (target : KeyMap β) (k : String) :
    (c.writeTo payload target).get? k = ((c.puts.get? k).map payload).or
      (if c.removals.contains k then none else target.get? k) := by
  have hputs : KeyMap.lookup k (c.puts.entries.map fun e => (e.1, payload e.2)).reverse =
      (c.puts.get? k).map payload := by
    rw [← KeyMap.get?_map (fun _ => payload) c.puts k]
    exact KeyMap.lookup_reverse (c.puts.map fun _ => payload).sorted k
  rw [writeTo, KeyMap.get?_insertAll, hputs, KeyMap.get?_foldl_erase]
  simp only [KeyMap.mem_keys_iff]

theorem applyTo_eq_writeTo (c : ChangeSet) (target : KeyMap String) :
    c.applyTo target = c.writeTo id target := by
  have hid : (c.puts.entries.map fun e => (e.1, id e.2)) = c.puts.entries := List.map_id _
  rw [writeTo, hid]
  rfl

theorem writeTo_empty (payload : String → β) (target : KeyMap β) :
    empty.writeTo payload target = target := rfl

/-- One more staged change is one more change of the outcome, whatever is staged before. -/
theorem writeTo_stage (payload : String → β) (c : ChangeSet) (change : Mutation)
    (target : KeyMap β) :
    (c.stage change).writeTo payload target =
      change.writeTo payload (c.writeTo payload target) := by
  apply KeyMap.ext_get?
  intro k
  cases change with
  | put key value =>
      rw [Mutation.writeTo, KeyMap.get?_insert, get?_writeTo, get?_writeTo]
      simp only [stage, put, KeyMap.get?_insert, KeyMap.contains_erase]
      by_cases hk : key = k
      · simp [hk]
      · simp [hk]
  | remove key =>
      rw [Mutation.writeTo, KeyMap.get?_erase, get?_writeTo, get?_writeTo]
      simp only [stage, remove, KeyMap.get?_erase, KeyMap.contains_insert]
      by_cases hk : key = k
      · simp [hk]
      · simp [hk]

theorem writeTo_foldl_stage (payload : String → β) (changes : List Mutation) (c : ChangeSet)
    (target : KeyMap β) :
    (changes.foldl stage c).writeTo payload target =
      changes.foldl (Mutation.writeTo payload) (c.writeTo payload target) := by
  induction changes generalizing c with
  | nil => rfl
  | cons change changes ih => rw [List.foldl_cons, List.foldl_cons, ih, writeTo_stage]

theorem contains_stage_of_ne (c : ChangeSet) {change : Mutation} {k : String}
    (h : change.key ≠ k) :
    (c.stage change).puts.contains k = c.puts.contains k ∧
      (c.stage change).removals.contains k = c.removals.contains k := by
  cases change with
  | put key value =>
      change key ≠ k at h
      simp [stage, put, KeyMap.contains_insert, KeyMap.contains_erase, h]
  | remove key =>
      change key ≠ k at h
      simp [stage, remove, KeyMap.contains_insert, KeyMap.contains_erase, h]

theorem contains_stage_self (c : ChangeSet) (change : Mutation) :
    ¬ ((c.stage change).puts.contains change.key = true ∧
      (c.stage change).removals.contains change.key = true) := by
  cases change with
  | put key value => simp [stage, put, Mutation.key, KeyMap.contains_erase]
  | remove key => simp [stage, remove, Mutation.key, KeyMap.contains_erase]

def Omits (c : ChangeSet) (key : String) : Prop :=
  c.puts.contains key = false ∧ c.removals.contains key = false

namespace Omits

variable {c : ChangeSet} {key : String}

theorem empty (key : String) : Omits empty key := ⟨rfl, rfl⟩

theorem foldl_stage (h : c.Omits key) {changes : List Mutation}
    (hkeys : ∀ change ∈ changes, change.key ≠ key) :
    (changes.foldl ChangeSet.stage c).Omits key := by
  induction changes generalizing c with
  | nil => exact h
  | cons change changes ih =>
      obtain ⟨hkey, hkeys⟩ := List.forall_mem_cons.1 hkeys
      obtain ⟨hputs, hremovals⟩ := c.contains_stage_of_ne hkey
      exact ih ⟨hputs.trans h.1, hremovals.trans h.2⟩ hkeys

theorem get?_writeTo (h : c.Omits key) (payload : String → β) (target : KeyMap β) :
    (c.writeTo payload target).get? key = target.get? key := by
  have hputs : c.puts.get? key = none :=
    Option.isNone_iff_eq_none.1 (Option.isSome_eq_false_iff.1 h.1)
  rw [ChangeSet.get?_writeTo, hputs, h.2]
  rfl

end Omits

/-- No key is both put and removed, and no key is empty. -/
structure Proper (c : ChangeSet) : Prop where
  disjoint : ∀ key, ¬ (c.puts.contains key = true ∧ c.removals.contains key = true)
  named : ∀ key, c.puts.contains key = true ∨ c.removals.contains key = true → key ≠ ""

namespace Proper

theorem empty : Proper empty := ⟨nofun, nofun⟩

theorem stage {c : ChangeSet} (h : c.Proper) {change : Mutation} (hkey : change.key ≠ "") :
    (c.stage change).Proper := by
  constructor
  · intro key
    by_cases hk : change.key = key
    · subst hk
      exact c.contains_stage_self change
    · obtain ⟨hputs, hremovals⟩ := c.contains_stage_of_ne hk
      rw [hputs, hremovals]
      exact h.disjoint key
  · intro key
    by_cases hk : change.key = key
    · subst hk
      exact fun _ => hkey
    · obtain ⟨hputs, hremovals⟩ := c.contains_stage_of_ne hk
      rw [hputs, hremovals]
      exact h.named key

theorem foldl_stage {changes : List Mutation} (hkeys : ∀ change ∈ changes, change.key ≠ "")
    {c : ChangeSet} (h : c.Proper) : (changes.foldl ChangeSet.stage c).Proper := by
  induction changes generalizing c with
  | nil => exact h
  | cons change changes ih =>
      obtain ⟨hkey, hkeys⟩ := List.forall_mem_cons.1 hkeys
      exact ih hkeys (h.stage hkey)

theorem get?_writeTo_empty {c : ChangeSet} (h : c.Proper) (payload : String → β)
    {target : KeyMap β} (htarget : target.get? "" = none) :
    (c.writeTo payload target).get? "" = none := by
  have hputs : c.puts.get? "" = none := by
    cases hput : c.puts.get? "" with
    | none => rfl
    | some value =>
        have hcontains : c.puts.contains "" = true := by
          rw [KeyMap.contains, hput]
          rfl
        exact absurd rfl (h.named "" (.inl hcontains))
  rw [get?_writeTo, hputs, htarget, ite_self]
  rfl

end Proper

end ChangeSet

end LayeredConfig
