import LayeredConfig.Context
import Mathlib.Data.List.Induction

/-!
Tables of converters. A table is determined by the list in which its converters were registered
(`ofList_eq`): its types stand in the order of their first converters, and the converters for a type
in the order of registration. Merging two tables registers one list after the other.
-/

namespace LayeredConfig

theorem eraseDups_concat {α : Type} [BEq α] [LawfulBEq α] (l : List α) (a : α) :
    (l ++ [a]).eraseDups = if l.contains a then l.eraseDups else l.eraseDups ++ [a] := by
  rw [List.eraseDups_append]
  cases h : l.contains a with
  | true =>
      have hnone : [a].removeAll l = [] := by simp_all [List.removeAll]
      rw [hnone, if_pos rfl]
      exact List.append_nil _
  | false =>
      have hall : [a].removeAll l = [a] := by simp_all [List.removeAll]
      rw [hall, if_neg Bool.false_ne_true]
      rfl

theorem nodup_eraseDups {α : Type} [BEq α] [LawfulBEq α] (l : List α) : l.eraseDups.Nodup := by
  induction l using List.reverseRecOn with
  | nil => exact .nil
  | append_singleton l a ih =>
      rw [eraseDups_concat]
      split
      · exact ih
      · rename_i h
        have hmem : a ∉ l := by simpa using h
        rw [List.nodup_append]
        refine ⟨ih, List.pairwise_singleton _ a, ?_⟩
        intro b hb c hc
        obtain rfl := List.mem_singleton.1 hc
        rintro rfl
        exact hmem (List.mem_eraseDups.1 hb)

theorem contains_append_eraseDups {α : Type} [BEq α] [LawfulBEq α] (l l' : List α) (a : α) :
    (l ++ l'.eraseDups).contains a = (l ++ l').contains a := by
  simp only [List.contains_eq_mem, List.mem_append, List.mem_eraseDups]

theorem eraseDups_append_eraseDups {α : Type} [BEq α] [LawfulBEq α] (l l' : List α) :
    (l ++ l'.eraseDups).eraseDups = (l ++ l').eraseDups := by
  induction l' using List.reverseRecOn with
  | nil => rfl
  | append_singleton l' a ih =>
      rw [eraseDups_concat, ← List.append_assoc, eraseDups_concat]
      cases h : l'.contains a with
      | true =>
          have hmem : (l ++ l').contains a = true := by simp_all
          rw [if_pos rfl, if_pos hmem, ih]
      | false =>
          rw [if_neg Bool.false_ne_true, ← List.append_assoc, eraseDups_concat,
            contains_append_eraseDups, ih]

theorem eraseDups_eraseDups_append {α : Type} [BEq α] [LawfulBEq α] (l l' : List α) :
    (l.eraseDups ++ l').eraseDups = (l ++ l').eraseDups := by
  induction l' using List.reverseRecOn with
  | nil => simpa using eraseDups_append_eraseDups [] l
  | append_singleton l' a ih =>
      have hcontains : (l.eraseDups ++ l').contains a = (l ++ l').contains a := by
        simp only [List.contains_eq_mem, List.mem_append, List.mem_eraseDups]
      rw [← List.append_assoc, ← List.append_assoc, eraseDups_concat, eraseDups_concat, hcontains,
        ih]

theorem eraseDups_append_same {α : Type} [BEq α] [LawfulBEq α] {l l' : List α} {a : α}
    (hnot : a ∉ l) (hne : l' ≠ []) (hsame : ∀ b ∈ l', b = a) :
    (l ++ l').eraseDups = l.eraseDups ++ [a] := by
  induction l' using List.reverseRecOn with
  | nil => exact absurd rfl hne
  | append_singleton l' b ih =>
      obtain ⟨hsame, hb⟩ := List.forall_mem_append.1 hsame
      obtain rfl := hb b List.mem_cons_self
      rw [← List.append_assoc, eraseDups_concat]
      cases hempty : l' with
      | nil =>
          have hnone : (l ++ []).contains b = false := by simpa using hnot
          rw [if_neg (by rw [hnone]; exact Bool.false_ne_true), List.append_nil]
      | cons c cs =>
          have hc : c = b := hsame c (by rw [hempty]; exact List.mem_cons_self)
          have hmem : (l ++ c :: cs).contains b = true := by simp [hc]
          rw [if_pos hmem, ← hempty]
          exact ih (by rw [hempty]; exact List.cons_ne_nil c cs) hsame

namespace ConverterTable

variable {m : Type → Type}

def aimedAt (t : String) (l : List (Converter m)) : List (Converter m) :=
  l.filter fun c => c.target = t

theorem aimedAt_append (t : String) (l l' : List (Converter m)) :
    aimedAt t (l ++ l') = aimedAt t l ++ aimedAt t l' := List.filter_append l l'

theorem target_of_mem_aimedAt {t : String} {l : List (Converter m)} {c : Converter m}
    (h : c ∈ aimedAt t l) : c.target = t := by
  simpa using (List.mem_filter.1 h).2

theorem aimedAt_of_target {t : String} {l : List (Converter m)} (h : ∀ c ∈ l, c.target = t) :
    aimedAt t l = l := List.filter_eq_self.2 fun c hc => decide_eq_true (h c hc)

theorem aimedAt_of_target_ne {t : String} {l : List (Converter m)} (h : ∀ c ∈ l, c.target ≠ t) :
    aimedAt t l = [] := List.filter_eq_nil_iff.2 fun c hc => by simpa using h c hc

theorem find_add (t : String) (c : Converter m) (table : ConverterTable m) :
    find t (add c table) = find t table ++ aimedAt t [c] := by
  induction table with
  | nil =>
      by_cases h : c.target = t
      · simp [add, find, aimedAt, h]
      · simp [add, find, aimedAt, h]
  | cons e table ih =>
      obtain ⟨t', cs⟩ := e
      rw [add]
      by_cases hc : t' = c.target
      · subst hc
        rw [if_pos rfl]
        by_cases h : c.target = t
        · simp [find, aimedAt, h]
        · simp [find, aimedAt, h]
      · rw [if_neg hc, find, find, ih]
        by_cases h : t' = t
        · subst h
          simp [aimedAt, Ne.symm hc]
        · simp [h]

theorem types_add (c : Converter m) (table : ConverterTable m) :
    types (add c table) =
      if (types table).contains c.target then types table else types table ++ [c.target] := by
  induction table with
  | nil => rfl
  | cons e table ih =>
      obtain ⟨t, cs⟩ := e
      rw [add]
      by_cases hc : t = c.target
      · subst hc
        simp [types]
      · rw [if_neg hc]
        change t :: types (add c table) = if (t :: types table).contains c.target then _ else _
        have hne : (c.target == t) = false := by simpa using Ne.symm hc
        rw [ih, List.contains_cons, hne, Bool.false_or]
        split
        · rfl
        · rfl

theorem eq_map_types {table : ConverterTable m} (h : (types table).Nodup) :
    table = (types table).map fun t => (t, find t table) := by
  induction table with
  | nil => rfl
  | cons e table ih =>
      obtain ⟨t, cs⟩ := e
      obtain ⟨hnot, hnodup⟩ := List.nodup_cons.1 h
      have hrest : (types table).map (fun t' => (t', find t' ((t, cs) :: table))) = table := by
        refine Eq.trans (List.map_congr_left ?_) (ih hnodup).symm
        intro t' ht'
        have hne : t ≠ t' := fun heq => hnot (heq ▸ ht')
        rw [find, if_neg hne]
      have hfirst : find t ((t, cs) :: table) = cs := if_pos rfl
      change _ = (t, find t ((t, cs) :: table)) ::
        (types table).map fun t' => (t', find t' ((t, cs) :: table))
      rw [hrest, hfirst]

theorem ofList_concat (l : List (Converter m)) (c : Converter m) :
    ofList (l ++ [c]) = add c (ofList l) := List.foldl_append

theorem find_ofList (t : String) (l : List (Converter m)) : find t (ofList l) = aimedAt t l := by
  induction l using List.reverseRecOn with
  | nil => rfl
  | append_singleton l c ih => rw [ofList_concat, find_add, ih, aimedAt_append]

theorem types_ofList (l : List (Converter m)) :
    types (ofList l) = (l.map (·.target)).eraseDups := by
  induction l using List.reverseRecOn with
  | nil => rfl
  | append_singleton l c ih =>
      have hcontains : ((l.map (·.target)).eraseDups).contains c.target =
          (l.map (·.target)).contains c.target := by
        simp only [List.contains_eq_mem, List.mem_eraseDups]
      rw [ofList_concat, types_add, ih, hcontains, List.map_append, List.map_singleton,
        eraseDups_concat]

theorem ofList_eq (l : List (Converter m)) :
    ofList l = (l.map (·.target)).eraseDups.map fun t => (t, aimedAt t l) := by
  have hnodup : (types (ofList l)).Nodup := by
    rw [types_ofList]
    exact nodup_eraseDups _
  rw [eq_map_types hnodup, types_ofList]
  exact List.map_congr_left fun t _ => congrArg (Prod.mk t) (find_ofList t l)

def grouped (l : List (Converter m)) : List (Converter m) :=
  (l.map (·.target)).eraseDups.flatMap fun t => aimedAt t l

theorem aimedAt_ne_nil {t : String} {l : List (Converter m)} (h : t ∈ l.map (·.target)) :
    aimedAt t l ≠ [] := by
  obtain ⟨c, hc, rfl⟩ := List.mem_map.1 h
  exact List.ne_nil_of_mem (List.mem_filter.2 ⟨hc, decide_eq_true rfl⟩)

theorem ofList_flatMap {types : List String} {f : String → List (Converter m)}
    (hnodup : types.Nodup) (hne : ∀ t ∈ types, f t ≠ [])
    (htarget : ∀ t ∈ types, ∀ c ∈ f t, c.target = t) :
    ((types.flatMap f).map (·.target)).eraseDups = types ∧
      ∀ t, aimedAt t (types.flatMap f) = if t ∈ types then f t else [] := by
  induction types using List.reverseRecOn with
  | nil => exact ⟨rfl, fun _ => rfl⟩
  | append_singleton types t ih =>
      obtain ⟨hnodup, -, hnot⟩ := List.nodup_append.1 hnodup
      obtain ⟨hne, hnet⟩ := List.forall_mem_append.1 hne
      obtain ⟨htarget, htargett⟩ := List.forall_mem_append.1 htarget
      obtain ⟨htypes, haimed⟩ := ih hnodup hne htarget
      have hlast : ∀ c ∈ f t, c.target = t := htargett t List.mem_cons_self
      have ht : t ∉ types := fun h => hnot t h t List.mem_cons_self rfl
      rw [List.flatMap_append, List.flatMap_singleton]
      refine ⟨?_, ?_⟩
      · have hnew : t ∉ (types.flatMap f).map (·.target) := by
          intro h
          obtain ⟨c, hc, hct⟩ := List.mem_map.1 h
          obtain ⟨t', ht', hc'⟩ := List.mem_flatMap.1 hc
          exact ht (hct ▸ (htarget t' ht' c hc').symm ▸ ht')
        have hsome : (f t).map (·.target) ≠ [] := by
          simpa using hnet t List.mem_cons_self
        rw [List.map_append, eraseDups_append_same hnew hsome (List.forall_mem_map.2 hlast), htypes]
      · intro t'
        rw [aimedAt_append, haimed]
        by_cases htt : t = t'
        · subst htt
          rw [if_neg ht, aimedAt_of_target hlast, if_pos (by simp)]
          rfl
        · have hnone : aimedAt t' (f t) = [] :=
            aimedAt_of_target_ne fun c hc heq => htt ((hlast c hc).symm.trans heq)
          rw [hnone, List.append_nil]
          simp [Ne.symm htt]

theorem ofList_grouped (l : List (Converter m)) : ofList (grouped l) = ofList l := by
  have hmem : ∀ t, t ∈ (l.map (·.target)).eraseDups ↔ t ∈ l.map (·.target) :=
    fun _ => List.mem_eraseDups
  obtain ⟨htypes, haimed⟩ := ofList_flatMap (f := fun t => aimedAt t l)
    (nodup_eraseDups (l.map (·.target))) (fun t ht => aimedAt_ne_nil ((hmem t).1 ht))
    (fun _ _ _ => target_of_mem_aimedAt)
  rw [ofList_eq, ofList_eq, grouped, htypes]
  refine List.map_congr_left fun t ht => ?_
  rw [haimed, if_pos ht]

theorem merge_ofList (l l' : List (Converter m)) :
    merge (ofList l) (ofList l') = grouped (l ++ l') := by
  rw [merge, types_ofList, types_ofList, eraseDups_append_eraseDups, eraseDups_eraseDups_append,
    ← List.map_append]
  simp only [find_ofList, ← aimedAt_append]
  rfl

/-- Merging two tables registers the converters of the first one, then those of the second one. -/
theorem ofList_merge (l l' : List (Converter m)) :
    ofList (merge (ofList l) (ofList l')) = ofList (l ++ l') := by
  rw [merge_ofList, ofList_grouped]

end ConverterTable

end LayeredConfig
