import LayeredConfig.Text.Blank
import Mathlib.Data.List.TakeWhile

/-!
What trimming leaves of a text: the one text without white space at its ends that the text is when
white space is put around it.
-/

namespace LayeredConfig.Text

def AllWhite (s : List Char) : Prop := ∀ c ∈ s, isWhite c = true

instance : DecidablePred AllWhite := fun s =>
  decidable_of_iff (s.all isWhite = true) List.all_eq_true

/-- No white space stands at either end. -/
structure Trimmed (t : List Char) : Prop where
  first : ∀ c ∈ t.head?, isWhite c = false
  last : ∀ c ∈ t.getLast?, isWhite c = false

/-- The second text is the first one without the white space around it. -/
structure Stripped (s t : List Char) : Prop where
  trimmed : Trimmed t
  around : ∃ u w, AllWhite u ∧ AllWhite w ∧ s = u ++ t ++ w

theorem AllWhite.nil : AllWhite [] := fun _ h => absurd h List.not_mem_nil

theorem AllWhite.append {u w : List Char} (hu : AllWhite u) (hw : AllWhite w) :
    AllWhite (u ++ w) := fun c hc => (List.mem_append.1 hc).elim (hu c) (hw c)

theorem AllWhite.reverse {u : List Char} (hu : AllWhite u) : AllWhite u.reverse :=
  fun c hc => hu c (List.mem_reverse.1 hc)

theorem dropWhile_white {u t : List Char} (hu : AllWhite u)
    (ht : ∀ c ∈ t.head?, isWhite c = false) : (u ++ t).dropWhile isWhite = t := by
  rw [List.dropWhile_append_of_pos hu]
  cases t with
  | nil => rfl
  | cons c t => exact List.dropWhile_cons_of_neg (by simp [ht c rfl])

theorem dropEndWhile_white {t w : List Char} (hw : AllWhite w)
    (ht : ∀ c ∈ t.getLast?, isWhite c = false) : dropEndWhile isWhite (t ++ w) = t := by
  have hlast : ∀ c ∈ t.reverse.head?, isWhite c = false := by
    rwa [List.head?_reverse]
  rw [dropEndWhile, List.reverse_append, dropWhile_white hw.reverse hlast, List.reverse_reverse]

theorem trim_append {u t w : List Char} (hu : AllWhite u) (ht : Trimmed t) (hw : AllWhite w) :
    trim (u ++ t ++ w) = t := by
  rw [trim, trimWhile]
  cases t with
  | nil =>
      have hall : (u ++ [] ++ w).dropWhile isWhite = [] := by
        rw [List.append_nil, ← List.append_nil (u ++ w)]
        exact dropWhile_white (hu.append hw) nofun
      rw [hall]
      rfl
  | cons c t =>
      have hstart : (u ++ (c :: t ++ w)).dropWhile isWhite = c :: t ++ w :=
        dropWhile_white hu ht.first
      rw [List.append_assoc, hstart, dropEndWhile_white hw ht.last]

theorem head?_dropWhile_white (s : List Char) :
    ∀ c ∈ (s.dropWhile isWhite).head?, isWhite c = false := by
  intro c hc
  have hnot := List.head?_dropWhile_not isWhite s
  rw [Option.mem_def.1 hc] at hnot
  exact hnot

theorem exists_white_append (s : List Char) :
    ∃ u, AllWhite u ∧ s = u ++ s.dropWhile isWhite :=
  ⟨s.takeWhile isWhite, fun _ => List.mem_takeWhile_imp, List.takeWhile_append_dropWhile.symm⟩

theorem stripped_trim (s : List Char) : Stripped s (trim s) := by
  obtain ⟨u, hu, hstart⟩ := exists_white_append s
  obtain ⟨w, hw, hend⟩ := exists_white_append (s.dropWhile isWhite).reverse
  have hrest : s.dropWhile isWhite = trim s ++ w.reverse := by
    rw [← List.reverse_reverse (s.dropWhile isWhite), hend, List.reverse_append]
    rfl
  refine ⟨⟨fun c hc => ?_, ?_⟩, u, w.reverse, hu, hw.reverse, ?_⟩
  · refine head?_dropWhile_white s c ?_
    rw [hrest, List.head?_append, Option.mem_def.1 hc]
    rfl
  · rw [← List.head?_reverse, trim, trimWhile, dropEndWhile, List.reverse_reverse]
    exact head?_dropWhile_white _
  · rw [List.append_assoc, ← hrest]
    exact hstart

theorem trim_eq_iff {s t : List Char} : trim s = t ↔ Stripped s t := by
  constructor
  · rintro rfl
    exact stripped_trim s
  · rintro ⟨htrimmed, u, w, hu, hw, rfl⟩
    exact trim_append hu htrimmed hw

theorem Trimmed.trim_eq {t : List Char} (h : Trimmed t) : trim t = t :=
  trim_eq_iff.2 ⟨h, [], [], .nil, .nil, (List.append_nil t).symm⟩

end LayeredConfig.Text
