import LayeredConfig.Format.Flat
import Mathlib.Data.List.Induction
import Mathlib.Data.List.TakeWhile

/-!
The stages of reading a flat document, one at a time: what a physical line is, when a line is an
entry of its own, and when it asks for the next one.
-/

namespace LayeredConfig.Format.Flat

theorem go_append {line : List Char} (h : '\n' ∉ line) (acc rest : List Char) :
    physicalLines.go acc (line ++ '\n' :: rest) =
      dropReturn (acc.reverse ++ line) :: physicalLines rest := by
  induction line generalizing acc with
  | nil =>
      rw [List.nil_append, List.append_nil, physicalLines.go, if_pos rfl]
      rfl
  | cons c line ih =>
      have hc : c ≠ '\n' := Ne.symm (List.ne_of_not_mem_cons h)
      have hline : '\n' ∉ line := List.not_mem_of_not_mem_cons h
      rw [List.cons_append, physicalLines.go, if_neg hc, ih hline, List.reverse_cons,
        List.append_assoc]
      rfl

theorem physicalLines_append {line : List Char} (h : '\n' ∉ line) (rest : List Char) :
    physicalLines (line ++ '\n' :: rest) = dropReturn line :: physicalLines rest :=
  go_append h [] rest

theorem dropReturn_of_not_mem {line : List Char} (h : '\r' ∉ line) : dropReturn line = line := by
  rw [dropReturn, if_neg]
  intro hlast
  exact h (List.mem_of_getLast? hlast)

@[simp] theorem continues_nil : continues [] = false := rfl

@[simp] theorem continues_concat (s : List Char) (c : Char) :
    continues (s ++ [c]) = (c == '\\' && !continues s) := by
  simp only [continues, List.reverse_append, List.reverse_singleton, List.singleton_append,
    List.takeWhile_cons]
  by_cases h : c = '\\'
  · simp only [h, decide_true, if_true, List.length_cons, beq_self_eq_true, Bool.true_and]
    rcases Nat.mod_two_eq_zero_or_one
      (s.reverse.takeWhile fun c => decide (c = '\\')).length with hs | hs <;>
    simp [Nat.add_mod, hs]
  · simp [h]

theorem continues_pair (c : Char) : continues ['\\', c] = false := by
  have hpair : continues (['\\'] ++ [c]) = (c == '\\' && !continues ['\\']) := continues_concat ..
  exact hpair.trans (Bool.and_false _)

theorem continues_append {s : List Char} (h : continues s = false) (t : List Char) :
    continues (s ++ t) = continues t := by
  induction t using List.reverseRecOn with
  | nil => rw [List.append_nil, h, continues_nil]
  | append_singleton t c ih =>
      rw [← List.append_assoc, continues_concat, continues_concat, ih]

theorem continues_of_blank {s : List Char} (h : ∀ c ∈ s, Text.isBlank c = true) :
    continues s = false := by
  induction s using List.reverseRecOn with
  | nil => rfl
  | append_singleton t c _ =>
      have hc : c ≠ '\\' := by
        rintro rfl
        exact absurd (h _ (List.mem_append_right t (List.mem_singleton_self _))) (by decide)
      rw [continues_concat, beq_eq_false_iff_ne.2 hc, Bool.false_and]

theorem continues_dropBlanks (line : List Char) : continues (dropBlanks line) = continues line := by
  have hblank : continues (line.takeWhile Text.isBlank) = false :=
    continues_of_blank fun c hc => List.mem_takeWhile_imp hc
  have happend := continues_append hblank (line.dropWhile Text.isBlank)
  rw [List.takeWhile_append_dropWhile] at happend
  exact happend.symm

theorem continues_dropLast {s : List Char} (h : continues s = true) :
    continues s.dropLast = false := by
  induction s using List.reverseRecOn with
  | nil => rfl
  | append_singleton t c _ =>
      rw [continues_concat, Bool.and_eq_true, Bool.not_eq_true'] at h
      rw [List.dropLast_concat, h.2]

theorem logicalLines_entry {line : List Char} (hblank : dropBlanks line = line)
    (hentry : isIgnored line = false) (hend : continues line = false) (n : Nat)
    (rest : List (List Char)) :
    logicalLines n none (line :: rest) = ⟨n, line⟩ :: logicalLines (n + 1) none rest := by
  simp only [logicalLines, hblank, hentry, hend, Bool.false_eq_true, and_false, if_false]

end LayeredConfig.Format.Flat
