import LayeredConfig.Text.Search
import Mathlib.Data.List.Infix

/-!
Where the search for a marker stops. It stops nowhere in a text that does not hold the marker, and
as long as what follows such a text cannot complete a marker begun in it, it goes on there as if it
had started there.
-/

namespace LayeredConfig.Text

theorem splitFirst?_eq_none_iff {marker s : List Char} :
    splitFirst? marker s = none ↔ ¬ marker <:+: s := by
  induction s with
  | nil =>
      rw [splitFirst?, Option.map_eq_none_iff, dropPrefix?_eq_none_iff, List.infix_nil,
        List.prefix_nil]
  | cons c s ih =>
      rw [List.infix_cons_iff, not_or, ← ih, ← dropPrefix?_eq_none_iff, splitFirst?]
      cases dropPrefix? marker (c :: s) with
      | none => simp
      | some rest => simp

theorem splitFirst?_append_right {marker s a b : List Char}
    (h : splitFirst? marker s = some (a, b)) (t : List Char) :
    splitFirst? marker (s ++ t) = some (a, b ++ t) := by
  induction s generalizing a with
  | nil =>
      obtain ⟨rest, hrest, hab⟩ := Option.map_eq_some_iff.1 h
      cases hab
      obtain ⟨rfl, rfl⟩ := List.append_eq_nil_iff.1 (eq_append_of_dropPrefix? hrest).symm
      cases t <;> rfl
  | cons c s ih =>
      cases hdrop : dropPrefix? marker (c :: s) with
      | some rest =>
          simp only [splitFirst?, hdrop, Option.some.injEq, Prod.mk.injEq] at h
          obtain ⟨rfl, rfl⟩ := h
          have hlater : dropPrefix? marker (c :: s ++ t) = some (rest ++ t) := by
            rw [eq_append_of_dropPrefix? hdrop, List.append_assoc, dropPrefix?_append]
          rw [List.cons_append] at hlater ⊢
          simp only [splitFirst?, hlater]
      | none =>
          rw [splitFirst?_cons hdrop] at h
          obtain ⟨⟨a', b'⟩, hfound, hab⟩ := Option.map_eq_some_iff.1 h
          cases hab
          -- The marker is no longer than what it is found in, so it does not reach beyond it.
          have hlength : marker.length ≤ (c :: s).length := by
            rw [eq_append_of_splitFirst? hfound]
            simp only [List.length_cons, List.length_append]
            omega
          have hlater : dropPrefix? marker (c :: (s ++ t)) = none := by
            rw [dropPrefix?_eq_none_iff] at hdrop ⊢
            intro hleads
            exact hdrop (List.prefix_of_prefix_length_le hleads (List.prefix_append (c :: s) t)
              hlength)
          rw [List.cons_append, splitFirst?_cons hlater, ih hfound]
          rfl

/-- A marker arises where two texts meet: a part of it ends the first one, and what is missing
starts the second one. -/
def Arises (marker a s : List Char) : Prop :=
  ∃ u v, marker = u ++ v ∧ u ≠ [] ∧ v ≠ [] ∧ u <:+ a ∧ v <+: s

theorem Arises.of_suffix {marker a b s : List Char} (h : Arises marker b s) (hb : b <:+ a) :
    Arises marker a s := by
  obtain ⟨u, v, hmarker, hu, hv, hsuffix, hleads⟩ := h
  exact ⟨u, v, hmarker, hu, hv, hsuffix.trans hb, hleads⟩

theorem not_arises_of_head {m : Char} {ms s : List Char} (hs : ∀ d ∈ s.head?, d ∉ ms)
    (a : List Char) : ¬ Arises (m :: ms) a s := by
  rintro ⟨u, v, hmarker, hu, hv, -, later, rfl⟩
  obtain ⟨c, u, rfl⟩ := List.exists_cons_of_ne_nil hu
  obtain ⟨d, v, rfl⟩ := List.exists_cons_of_ne_nil hv
  rw [List.cons_append, List.cons.injEq] at hmarker
  refine hs d rfl ?_
  rw [hmarker.2]
  exact List.mem_append_right u List.mem_cons_self

section Clear

variable {marker a s : List Char}

/-- No marker that starts in a text is completed by what follows. -/
theorem dropPrefix?_clear {c : Char} (ha : ¬ marker <:+: c :: a)
    (hs : ¬ Arises marker (c :: a) s) : dropPrefix? marker (c :: (a ++ s)) = none := by
  rw [dropPrefix?_eq_none_iff, ← List.cons_append]
  intro hleads
  rcases List.prefix_or_prefix_of_prefix hleads (List.prefix_append (c :: a) s) with
    hwithin | ⟨rest, rfl⟩
  · exact ha hwithin.isInfix
  · have hne : rest ≠ [] := by
      rintro rfl
      exact ha (List.append_nil _ ▸ List.infix_rfl)
    rw [List.prefix_append_right_inj] at hleads
    exact hs ⟨c :: a, rest, rfl, List.cons_ne_nil c a, hne, List.suffix_rfl, hleads⟩

theorem splitFirst?_clear (ha : ¬ marker <:+: a) (hs : ¬ Arises marker a s) :
    splitFirst? marker (a ++ s) = (splitFirst? marker s).map fun r => (a ++ r.1, r.2) := by
  induction a with
  | nil => simp
  | cons c a ih =>
      have ha' : ¬ marker <:+: a := fun h => ha (List.infix_cons_iff.2 (.inr h))
      have hs' : ¬ Arises marker a s := fun h => hs (h.of_suffix (List.suffix_cons c a))
      rw [List.cons_append, splitFirst?_cons (dropPrefix?_clear ha hs), ih ha' hs', Option.map_map]
      rfl

theorem splitFirst?_clear_append {b : List Char} (ha : ¬ marker <:+: a)
    (hs : ¬ Arises marker a (marker ++ b)) :
    splitFirst? marker (a ++ (marker ++ b)) = some (a, b) := by
  have hne : marker ≠ [] := by
    rintro rfl
    exact ha (List.nil_infix)
  rw [splitFirst?_clear ha hs, splitFirst?_self b hne, Option.map_some, List.append_nil]

theorem not_infix_append (ha : ¬ marker <:+: a) (hs : ¬ Arises marker a s)
    (h : ¬ marker <:+: s) : ¬ marker <:+: a ++ s := by
  rw [← splitFirst?_eq_none_iff] at h ⊢
  rw [splitFirst?_clear ha hs, h]
  rfl

end Clear

theorem not_infix_skip {m : Char} {a ms s : List Char} (ha : m ∉ a) (hs : ¬ m :: ms <:+: s) :
    ¬ m :: ms <:+: a ++ s := by
  rw [← splitFirst?_eq_none_iff] at hs ⊢
  rw [splitFirst?_skip ha, hs]
  rfl

theorem not_infix_cons {m : Char} {ms s : List Char} (h : ¬ ms <+: s) (hs : ¬ m :: ms <:+: s) :
    ¬ m :: ms <:+: m :: s := by
  rw [List.infix_cons_iff, List.cons_prefix_cons, not_or]
  exact ⟨fun hstarts => h hstarts.2, hs⟩

theorem splitLast?_eq_none_iff {marker s : List Char} :
    splitLast? marker s = none ↔ ¬ marker <:+: s := by
  rw [splitLast?, Option.map_eq_none_iff, splitFirst?_eq_none_iff, List.reverse_infix]

theorem splitLast?_clear_append {marker b : List Char} {m : Char} {ms : List Char}
    (hmarker : marker = ms ++ [m]) (hm : m ∉ ms) (hb : ¬ marker <:+: b) (a : List Char) :
    splitLast? marker (a ++ (marker ++ b)) = some (a, b) := by
  have hrev : marker.reverse = m :: ms.reverse := by
    rw [hmarker, List.reverse_append, List.reverse_singleton, List.singleton_append]
  have hb' : ¬ (m :: ms.reverse) <:+: b.reverse := by
    rwa [← hrev, List.reverse_infix]
  have hs : ¬ Arises (m :: ms.reverse) b.reverse (m :: ms.reverse ++ a.reverse) := by
    refine not_arises_of_head ?_ b.reverse
    rintro d ⟨⟩
    exact mt List.mem_reverse.1 hm
  have hsplit := splitFirst?_clear_append hb' hs
  rw [splitLast?, List.reverse_append, List.reverse_append, List.append_assoc, hrev, hsplit]
  simp only [Option.map_some, List.reverse_reverse]

end LayeredConfig.Text
