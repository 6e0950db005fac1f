/-!
Finite maps from text keys, kept as lists that increase strictly in the key. The order of the keys
is by code point, so listing a map is already listing it in key order, and two maps with the same
entries are the same value (`KeyMap.ext_get?`).
-/

namespace LayeredConfig

/-- A finite map from keys to values; its entries increase strictly in the key. -/
structure KeyMap (β : Type) where
  entries : List (String × β)
  sorted : entries.Pairwise (fun a b => a.1 < b.1)

namespace KeyMap

variable {β γ : Type}

@[ext] theorem ext {a b : KeyMap β} (h : a.entries = b.entries) : a = b := by
  cases a; cases b; simp_all

instance [BEq β] : BEq (KeyMap β) := ⟨fun a b => a.entries == b.entries⟩

instance [DecidableEq β] : DecidableEq (KeyMap β) := fun a b =>
  decidable_of_iff (a.entries = b.entries) ⟨ext, congrArg entries⟩

def empty : KeyMap β := ⟨[], .nil⟩

instance : EmptyCollection (KeyMap β) := ⟨empty⟩
instance : Inhabited (KeyMap β) := ⟨empty⟩

def lookup (key : String) : List (String × β) → Option β
  | [] => none
  | (k, v) :: rest => if k = key then some v else lookup key rest

def insertEntry (key : String) (value : β) : List (String × β) → List (String × β)
  | [] => [(key, value)]
  | (k, v) :: rest =>
    if key < k then (key, value) :: (k, v) :: rest
    else if key = k then (key, value) :: rest
    else (k, v) :: insertEntry key value rest

theorem mem_insertEntry {key : String} {value : β} {l : List (String × β)} {e : String × β}
    (h : e ∈ insertEntry key value l) : e = (key, value) ∨ e ∈ l := by
  induction l with
  | nil => simpa [insertEntry] using h
  | cons p rest ih =>
    obtain ⟨k, v⟩ := p
    simp only [insertEntry] at h
    split at h
    · simpa using h
    · split at h
      · simp only [List.mem_cons] at h ⊢
        exact h.imp id Or.inr
      · simp only [List.mem_cons] at h ⊢
        rcases h with h | h
        · exact .inr (.inl h)
        · exact (ih h).imp id Or.inr

theorem lt_of_not_lt_of_ne {a b : String} (h : ¬ a < b) (hne : a ≠ b) : b < a := by
  rcases Decidable.em (b < a) with hlt | hlt
  · exact hlt
  · exact absurd (String.le_antisymm (String.not_lt.1 hlt) (String.not_lt.1 h)) hne

theorem sorted_insertEntry (key : String) (value : β) {l : List (String × β)}
    (h : l.Pairwise (fun a b => a.1 < b.1)) :
    (insertEntry key value l).Pairwise (fun a b => a.1 < b.1) := by
  induction l with
  | nil => simp [insertEntry]
  | cons p rest ih =>
    obtain ⟨k, v⟩ := p
    obtain ⟨hk, hr⟩ := List.pairwise_cons.1 h
    simp only [insertEntry]
    split
    · rename_i hlt
      refine List.pairwise_cons.2 ⟨fun e he => ?_, h⟩
      rcases List.mem_cons.1 he with rfl | he
      · exact hlt
      · exact String.lt_trans hlt (hk e he)
    · rename_i hlt
      split
      · rename_i heq
        exact List.pairwise_cons.2 ⟨fun e he => heq ▸ hk e he, hr⟩
      · rename_i hne
        refine List.pairwise_cons.2 ⟨fun e he => ?_, ih hr⟩
        rcases mem_insertEntry he with rfl | he
        · exact lt_of_not_lt_of_ne hlt hne
        · exact hk e he

theorem lookup_insertEntry (key : String) (value : β) (l : List (String × β)) (k : String) :
    lookup k (insertEntry key value l) = if key = k then some value else lookup k l := by
  induction l with
  | nil => simp [insertEntry, lookup]
  | cons p rest ih =>
    obtain ⟨k', v⟩ := p
    simp only [insertEntry]
    split
    · simp [lookup]
    · split
      · subst_vars
        simp only [lookup]
        split <;> rfl
      · simp only [lookup, ih]
        split
        · subst_vars; simp_all
        · rfl

def get? (m : KeyMap β) (key : String) : Option β := lookup key m.entries

def contains (m : KeyMap β) (key : String) : Bool := (m.get? key).isSome

def insert (m : KeyMap β) (key : String) (value : β) : KeyMap β :=
  ⟨insertEntry key value m.entries, sorted_insertEntry key value m.sorted⟩

def filter (p : String → β → Bool) (m : KeyMap β) : KeyMap β :=
  ⟨m.entries.filter (fun e => p e.1 e.2), m.sorted.filter _⟩

def erase (m : KeyMap β) (key : String) : KeyMap β := m.filter (fun k _ => k != key)

def keys (m : KeyMap β) : List String := m.entries.map (·.1)

def values (m : KeyMap β) : List β := m.entries.map (·.2)

def size (m : KeyMap β) : Nat := m.entries.length

def isEmpty (m : KeyMap β) : Bool := m.entries.isEmpty

def map (f : String → β → γ) (m : KeyMap β) : KeyMap γ :=
  ⟨m.entries.map (fun e => (e.1, f e.1 e.2)), by
    simpa [List.pairwise_map] using m.sorted⟩

/-- Adds entries one after another; a later entry replaces an earlier one with its key. -/
def insertAll (m : KeyMap β) (l : List (String × β)) : KeyMap β :=
  l.foldl (fun m e => m.insert e.1 e.2) m

/-- The map of a list of entries, in which the last entry with a key counts. -/
def ofList (l : List (String × β)) : KeyMap β := empty.insertAll l

/-- The entries of both maps; the second map's value counts where both have one. -/
def overlay (a b : KeyMap β) : KeyMap β := a.insertAll b.entries

def filterMap (f : String → β → Option γ) (m : KeyMap β) : KeyMap γ :=
  ofList (m.entries.filterMap (fun e => (f e.1 e.2).map (e.1, ·)))

def present (m : KeyMap (Option β)) : KeyMap β := m.filterMap (fun _ v => v)

@[simp] theorem get?_empty (k : String) : (empty : KeyMap β).get? k = none := rfl

theorem get?_insert (m : KeyMap β) (key : String) (value : β) (k : String) :
    (m.insert key value).get? k = if key = k then some value else m.get? k :=
  lookup_insertEntry key value m.entries k

@[simp] theorem get?_insert_self (m : KeyMap β) (key : String) (value : β) :
    (m.insert key value).get? key = some value := by simp [get?_insert]

theorem get?_insert_of_ne (m : KeyMap β) {key k : String} (value : β) (h : key ≠ k) :
    (m.insert key value).get? k = m.get? k := by simp [get?_insert, h]

theorem lookup_filter_ne (key k : String) (l : List (String × β)) :
    lookup k (l.filter (fun e => e.1 != key)) = if key = k then none else lookup k l := by
  induction l with
  | nil => simp [lookup]
  | cons p rest ih =>
    obtain ⟨k', v⟩ := p
    by_cases h : k' = key
    · subst h
      simp only [List.filter, bne_self_eq_false, ih, lookup]
      split <;> rfl
    · have : (k' != key) = true := by simpa using h
      simp only [List.filter, this, lookup, ih]
      split
      · subst_vars; simp [Ne.symm h]
      · rfl

theorem get?_erase (m : KeyMap β) (key k : String) :
    (m.erase key).get? k = if key = k then none else m.get? k :=
  lookup_filter_ne key k m.entries

@[simp] theorem contains_empty (k : String) : (empty : KeyMap β).contains k = false := rfl

theorem contains_insert (m : KeyMap β) (key : String) (value : β) (k : String) :
    (m.insert key value).contains k = (key == k || m.contains k) := by
  rw [contains, get?_insert]
  by_cases h : key = k
  · simp [h]
  · simp [h, contains]

theorem contains_erase (m : KeyMap β) (key k : String) :
    (m.erase key).contains k = (key != k && m.contains k) := by
  rw [contains, get?_erase]
  by_cases h : key = k
  · simp [h]
  · simp [h, contains]

theorem lookup_map (f : String → β → γ) (l : List (String × β)) (k : String) :
    lookup k (l.map (fun e => (e.1, f e.1 e.2))) = (lookup k l).map (f k) := by
  induction l with
  | nil => rfl
  | cons p rest ih =>
    obtain ⟨k', v⟩ := p
    simp only [List.map, lookup]
    split
    · subst_vars; rfl
    · exact ih

theorem get?_map (f : String → β → γ) (m : KeyMap β) (k : String) :
    (m.map f).get? k = (m.get? k).map (f k) := lookup_map f m.entries k

theorem lookup_eq_some_iff {l : List (String × β)} (h : l.Pairwise (fun a b => a.1 < b.1))
    {k : String} {v : β} : lookup k l = some v ↔ (k, v) ∈ l := by
  induction l with
  | nil => simp [lookup]
  | cons p rest ih =>
    obtain ⟨k', v'⟩ := p
    obtain ⟨hk, hr⟩ := List.pairwise_cons.1 h
    simp only [lookup]
    split
    · rename_i heq
      subst heq
      simp only [List.mem_cons, Prod.mk.injEq, true_and, Option.some.injEq]
      constructor
      · rintro rfl; exact .inl rfl
      · rintro (rfl | hmem)
        · rfl
        · exact absurd (hk _ hmem) (String.lt_irrefl _)
    · rename_i hne
      rw [ih hr]
      simp only [List.mem_cons, Prod.mk.injEq]
      constructor
      · exact .inr
      · rintro (⟨rfl, rfl⟩ | hmem)
        · exact absurd rfl hne
        · exact hmem

theorem get?_eq_some_iff {m : KeyMap β} {k : String} {v : β} :
    m.get? k = some v ↔ (k, v) ∈ m.entries := lookup_eq_some_iff m.sorted

theorem lookup_append (k : String) (l l' : List (String × β)) :
    lookup k (l ++ l') = (lookup k l).or (lookup k l') := by
  induction l with
  | nil => rfl
  | cons e rest ih =>
    obtain ⟨k', v⟩ := e
    simp only [List.cons_append, lookup]
    split
    · rfl
    · exact ih

theorem lookup_eq_none_iff {k : String} {l : List (String × β)} :
    lookup k l = none ↔ ∀ e ∈ l, e.1 ≠ k := by
  induction l with
  | nil => simp [lookup]
  | cons e rest ih =>
    obtain ⟨k', v⟩ := e
    simp only [lookup, List.forall_mem_cons]
    split
    · rename_i heq
      exact ⟨nofun, fun h => absurd heq h.1⟩
    · rename_i hne
      exact ih.trans ⟨fun h => ⟨hne, h⟩, And.right⟩

theorem lookup_eq_none_of_lt {k : String} {l : List (String × β)} (h : ∀ e ∈ l, k < e.1) :
    lookup k l = none :=
  lookup_eq_none_iff.2 fun e he hek => String.lt_irrefl k (hek ▸ h e he)

theorem lookup_filter {p : String → β → Bool} {l : List (String × β)}
    (h : l.Pairwise (fun a b => a.1 < b.1)) (k : String) :
    lookup k (l.filter fun e => p e.1 e.2) = (lookup k l).filter (p k) := by
  induction l with
  | nil => rfl
  | cons e rest ih =>
    obtain ⟨k', v⟩ := e
    obtain ⟨hlt, hrest⟩ := List.pairwise_cons.1 h
    rw [List.filter_cons, lookup]
    by_cases hk : k' = k
    · subst hk
      rw [if_pos rfl, Option.filter_some]
      split
      · exact if_pos rfl
      · rw [ih hrest, lookup_eq_none_of_lt hlt]
        rfl
    · rw [if_neg hk, ← ih hrest]
      split
      · exact if_neg hk
      · rfl

theorem get?_filter (p : String → β → Bool) (m : KeyMap β) (k : String) :
    (m.filter p).get? k = (m.get? k).filter (p k) := lookup_filter m.sorted k

theorem entries_eq_of_lookup {l l' : List (String × β)}
    (h : l.Pairwise (fun a b => a.1 < b.1)) (h' : l'.Pairwise (fun a b => a.1 < b.1))
    (hget : ∀ k, lookup k l = lookup k l') : l = l' := by
  induction l generalizing l' with
  | nil =>
    cases l' with
    | nil => rfl
    | cons p rest => have := hget p.1; simp [lookup] at this
  | cons p rest ih =>
    obtain ⟨k, v⟩ := p
    cases l' with
    | nil => have := hget k; simp [lookup] at this
    | cons p' rest' =>
      obtain ⟨k', v'⟩ := p'
      obtain ⟨hk, hr⟩ := List.pairwise_cons.1 h
      obtain ⟨hk', hr'⟩ := List.pairwise_cons.1 h'
      have h1 : (k, v) ∈ (k', v') :: rest' :=
        (lookup_eq_some_iff h').1 (by rw [← hget k]; simp [lookup])
      have h2 : (k', v') ∈ (k, v) :: rest :=
        (lookup_eq_some_iff h).1 (by rw [hget k']; simp [lookup])
      have hkk : (k, v) = (k', v') := by
        rcases List.mem_cons.1 h1 with h1 | h1
        · exact h1
        · rcases List.mem_cons.1 h2 with h2 | h2
          · exact h2.symm
          · exact absurd (hk _ h2) (String.lt_asymm (hk' _ h1))
      obtain ⟨rfl, rfl⟩ := Prod.mk.inj hkk
      refine congrArg _ (ih hr hr' fun key => ?_)
      have hget' := hget key
      simp only [lookup] at hget'
      split at hget'
      · rename_i heq
        subst heq
        rw [lookup_eq_none_of_lt hk, lookup_eq_none_of_lt hk']
      · exact hget'

theorem ext_get? {a b : KeyMap β} (h : ∀ k, a.get? k = b.get? k) : a = b :=
  ext (entries_eq_of_lookup a.sorted b.sorted h)

theorem lookup_reverse {l : List (String × β)} (h : l.Pairwise (fun a b => a.1 < b.1))
    (k : String) : lookup k l.reverse = lookup k l := by
  induction l with
  | nil => rfl
  | cons e rest ih =>
    obtain ⟨k', v⟩ := e
    obtain ⟨hlt, hrest⟩ := List.pairwise_cons.1 h
    rw [List.reverse_cons, lookup_append, ih hrest]
    simp only [lookup]
    split
    · rename_i heq
      subst heq
      rw [lookup_eq_none_of_lt hlt]
      rfl
    · exact Option.or_none

theorem get?_insertAll (m : KeyMap β) (l : List (String × β)) (k : String) :
    (m.insertAll l).get? k = (lookup k l.reverse).or (m.get? k) := by
  induction l generalizing m with
  | nil => rfl
  | cons e rest ih =>
    obtain ⟨k', v⟩ := e
    change ((m.insert k' v).insertAll rest).get? k = _
    rw [ih, List.reverse_cons, lookup_append, get?_insert, Option.or_assoc]
    simp only [lookup]
    split <;> rfl

theorem get?_ofList (l : List (String × β)) (k : String) :
    (ofList l).get? k = lookup k l.reverse := by
  rw [ofList, get?_insertAll, get?_empty, Option.or_none]

theorem ofList_entries (m : KeyMap β) : ofList m.entries = m := by
  apply ext_get?
  intro k
  rw [get?_ofList, lookup_reverse m.sorted]
  rfl

theorem ofList_append (l l' : List (String × β)) :
    ofList (l ++ l') = (ofList l).overlay (ofList l') := by
  apply ext_get?
  intro k
  rw [overlay, get?_insertAll, lookup_reverse (ofList l').sorted, get?_ofList, get?_ofList,
    List.reverse_append, lookup_append, ← get?_ofList l']
  rfl

theorem lookup_filterMap (f : String → β → Option γ) {l : List (String × β)}
    (h : l.Pairwise (fun a b => a.1 < b.1)) (k : String) :
    lookup k (l.filterMap fun e => (f e.1 e.2).map (e.1, ·)) = (lookup k l).bind (f k) := by
  induction l with
  | nil => rfl
  | cons e rest ih =>
    obtain ⟨k', v⟩ := e
    obtain ⟨hlt, hrest⟩ := List.pairwise_cons.1 h
    rw [List.filterMap_cons, lookup]
    by_cases hk : k' = k
    · subst hk
      rw [if_pos rfl, Option.bind_some]
      cases hv : f k' v with
      | none =>
        -- No later entry has the key of the one that is left out.
        simp only [Option.map_none, ih hrest, lookup_eq_none_of_lt hlt, Option.bind_none]
      | some w => exact if_pos rfl
    · rw [if_neg hk, ← ih hrest]
      cases f k' v with
      | none => rfl
      | some w => exact if_neg hk

theorem get?_filterMap (f : String → β → Option γ) (m : KeyMap β) (k : String) :
    (m.filterMap f).get? k = (m.get? k).bind (f k) := by
  rw [filterMap, get?_ofList, lookup_reverse, lookup_filterMap f m.sorted]
  · rfl
  · refine m.sorted.filterMap _ ?_
    intro a a' hlt b hb b' hb'
    obtain ⟨v, -, rfl⟩ := Option.map_eq_some_iff.1 hb
    obtain ⟨v', -, rfl⟩ := Option.map_eq_some_iff.1 hb'
    exact hlt

end KeyMap

end LayeredConfig
