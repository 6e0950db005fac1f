import LayeredConfig.Key
import LayeredConfig.Proofs.Text.Search
import Mathlib.Order.Bounds.Basic

/-!
The sections that enclose a key. They are those that enclose its parent section, and the parent
itself; what the sections of several keys have in common follows by induction along parents.
-/

namespace LayeredConfig.Key

theorem beforeDots_append (a b : List Char) :
    beforeDots (a ++ b) = beforeDots a ++ (beforeDots b).map (a ++ ·) := by
  induction a with
  | nil => simp [beforeDots]
  | cons c a ih =>
      simp only [List.cons_append, beforeDots, ih, List.map_append, List.map_map]
      split <;> rfl

theorem beforeDots_of_not_mem {s : List Char} (h : '.' ∉ s) : beforeDots s = [] := by
  induction s with
  | nil => rfl
  | cons c s ih =>
      have hc : c ≠ '.' := (List.ne_of_not_mem_cons h).symm
      rw [beforeDots, ih (List.not_mem_of_not_mem_cons h), if_neg hc, List.map_nil]

theorem mem_beforeDots {s d : List Char} : d ∈ beforeDots s ↔ d ++ ['.'] <+: s := by
  induction s generalizing d with
  | nil => simp [beforeDots]
  | cons c s ih =>
      cases d with
      | nil =>
          rw [List.nil_append, List.cons_prefix_cons, beforeDots]
          split <;> simp_all [eq_comm]
      | cons e d =>
          rw [List.cons_append, List.cons_prefix_cons, ← ih, beforeDots]
          split <;> simp [and_comm, eq_comm]

theorem split_lastDot (s : List Char) :
    Text.splitLast? ['.'] s = none ∧ '.' ∉ s ∨
      ∃ before after, Text.splitLast? ['.'] s = some (before, after) ∧
        s = before ++ '.' :: after ∧ '.' ∉ after := by
  by_cases h : '.' ∈ s
  · obtain ⟨rest, start, hs, hrest⟩ := List.eq_append_cons_of_mem (List.mem_reverse.2 h)
    have hcut : s = start.reverse ++ '.' :: rest.reverse := by
      rw [← s.reverse_reverse, hs, List.reverse_append, List.reverse_cons, List.append_assoc]
      rfl
    have hlast : '.' ∉ rest.reverse := mt List.mem_reverse.1 hrest
    refine .inr ⟨start.reverse, rest.reverse, ?_, hcut, hlast⟩
    rw [hcut]
    exact Text.splitLast?_append rfl hlast start.reverse
  · refine .inl ⟨Text.splitLast?_eq_none_iff.2 ?_, h⟩
    rwa [List.singleton_infix_iff]

theorem mem_enclosingSections {key s : String} :
    s ∈ enclosingSections key ↔ s ≠ "" ∧ s.toList ++ ['.'] <+: key.toList := by
  simp only [enclosingSections, List.mem_map, List.mem_filter, mem_beforeDots, decide_not,
    Bool.not_eq_true', decide_eq_false_iff_not]
  constructor
  · rintro ⟨d, ⟨hd, hne⟩, rfl⟩
    rw [String.toList_ofList]
    exact ⟨mt String.ofList_eq_empty_iff.1 hne, hd⟩
  · rintro ⟨hne, hs⟩
    exact ⟨s.toList, ⟨hs, mt String.toList_eq_nil_iff.1 hne⟩, String.ofList_toList⟩

/-- A key without a parent section is enclosed by none; else the sections that enclose it are those
that enclose its parent, and the parent. -/
theorem parentSection_cases (key : String) :
    parentSection key = none ∧ enclosingSections key = [] ∨
      ∃ p, parentSection key = some p ∧ enclosingSections key = enclosingSections p ++ [p] := by
  rcases split_lastDot key.toList with ⟨hsplit, hdot⟩ | ⟨before, after, hsplit, hkey, hafter⟩
  · refine .inl ⟨?_, ?_⟩
    · rw [parentSection, hsplit]
      rfl
    · rw [enclosingSections, beforeDots_of_not_mem hdot]
      rfl
  · have hdots : beforeDots key.toList = beforeDots before ++ [before] := by
      rw [hkey, beforeDots_append, beforeDots, if_pos rfl, beforeDots_of_not_mem hafter]
      simp
    by_cases hbefore : before = []
    · refine .inl ⟨?_, ?_⟩
      · rw [parentSection, hsplit, hbefore]
        rfl
      · rw [enclosingSections, hdots, hbefore]
        rfl
    · refine .inr ⟨String.ofList before, ?_, ?_⟩
      · simp [parentSection, hsplit, hbefore]
      · simp [enclosingSections, hdots, hbefore]

theorem enclosingSections_of_parent {key p : String} (h : parentSection key = some p) :
    enclosingSections key = enclosingSections p ++ [p] := by
  rcases parentSection_cases key with ⟨hnone, -⟩ | ⟨q, hq, henclosing⟩
  · cases hnone.symm.trans h
  · cases hq.symm.trans h
    exact henclosing

theorem getLast?_enclosingSections (key : String) :
    (enclosingSections key).getLast? = parentSection key := by
  rcases parentSection_cases key with ⟨hparent, henclosing⟩ | ⟨p, hparent, henclosing⟩
  · rw [hparent, henclosing]
    rfl
  · rw [hparent, henclosing, List.getLast?_concat]

theorem mem_enclosingSections_of_parent {key p : String} (h : parentSection key = some p) :
    p ∈ enclosingSections key := by
  rw [enclosingSections_of_parent h]
  exact List.mem_concat_self

theorem parent_induction {motive : String → Prop}
    (h : ∀ key, (∀ p, parentSection key = some p → motive p) → motive key) (key : String) :
    motive key := by
  -- Each parent is shorter than its key.
  induction hn : key.toList.length using Nat.strong_induction_on generalizing key with
  | _ n ih =>
      refine h key fun p hp => ih p.toList.length ?_ p rfl
      obtain ⟨-, hprefix⟩ := mem_enclosingSections.1 (mem_enclosingSections_of_parent hp)
      have hlength := hprefix.length_le
      rw [List.length_append, List.length_singleton] at hlength
      omega

theorem pairwise_enclosingSections (key : String) :
    (enclosingSections key).Pairwise fun a b => a.toList <+: b.toList ∧ a ≠ b := by
  induction key using parent_induction with
  | h key ih =>
      rcases parentSection_cases key with ⟨-, henclosing⟩ | ⟨p, hparent, henclosing⟩
      · rw [henclosing]
        exact .nil
      · rw [henclosing, List.pairwise_append]
        refine ⟨ih p hparent, List.pairwise_singleton _ p, ?_⟩
        intro a ha b hb
        obtain rfl := List.mem_singleton.1 hb
        obtain ⟨-, hprefix⟩ := mem_enclosingSections.1 ha
        refine ⟨(List.prefix_append a.toList ['.']).trans hprefix, ?_⟩
        rintro rfl
        have hlength := hprefix.length_le
        rw [List.length_append, List.length_singleton] at hlength
        omega

/-- A set of sections has with each section also its parent. -/
def ParentClosed (S : Set String) : Prop := ∀ s ∈ S, ∀ p, parentSection s = some p → p ∈ S

theorem contains_ofList_iff {l : List String} {s : String} :
    (KeyMap.ofList (l.map (·, ()))).contains s = true ↔ s ∈ l := by
  rw [KeyMap.contains, KeyMap.get?_ofList, Option.isSome_iff_ne_none, ne_eq,
    KeyMap.lookup_eq_none_iff]
  simp

theorem contains_directSections {keys : List String} {s : String} :
    (directSections keys).contains s = true ↔ ∃ key ∈ keys, parentSection key = some s := by
  rw [directSections, contains_ofList_iff, List.mem_filterMap]

theorem contains_transitiveSections {keys : List String} {s : String} :
    (transitiveSections keys).contains s = true ↔ ∃ key ∈ keys, s ∈ enclosingSections key := by
  rw [transitiveSections, contains_ofList_iff, List.mem_flatMap]

theorem ParentClosed.mem_of_enclosing {S : Set String} (h : ParentClosed S) (key : String)
    (hparent : ∀ p, parentSection key = some p → p ∈ S) : ∀ s ∈ enclosingSections key, s ∈ S := by
  induction key using parent_induction with
  | h key ih =>
      rcases parentSection_cases key with ⟨-, henclosing⟩ | ⟨p, hp, henclosing⟩
      · rw [henclosing]
        exact nofun
      · rw [henclosing]
        refine List.forall_mem_append.2 ⟨?_, List.forall_mem_singleton.2 (hparent p hp)⟩
        exact ih p hp (h p (hparent p hp))

theorem parentClosed_transitiveSections (keys : List String) :
    ParentClosed {s | (transitiveSections keys).contains s = true} := by
  intro s hs p hp
  obtain ⟨key, hkey, hmem⟩ := contains_transitiveSections.1 hs
  obtain ⟨-, hprefix⟩ := mem_enclosingSections.1 hmem
  obtain ⟨hne, hparent⟩ := mem_enclosingSections.1 (mem_enclosingSections_of_parent hp)
  have hlonger : s.toList <+: key.toList := (List.prefix_append s.toList ['.']).trans hprefix
  exact contains_transitiveSections.2
    ⟨key, hkey, mem_enclosingSections.2 ⟨hne, hparent.trans hlonger⟩⟩

theorem isLeast_transitiveSections (keys : List String) :
    IsLeast {S : Set String |
        (∀ s, (directSections keys).contains s = true → s ∈ S) ∧ ParentClosed S}
      {s | (transitiveSections keys).contains s = true} := by
  refine ⟨⟨?_, parentClosed_transitiveSections keys⟩, ?_⟩
  · intro s hs
    obtain ⟨key, hkey, hparent⟩ := contains_directSections.1 hs
    exact contains_transitiveSections.2 ⟨key, hkey, mem_enclosingSections_of_parent hparent⟩
  · rintro S ⟨hdirect, hclosed⟩ s hs
    obtain ⟨key, hkey, hmem⟩ := contains_transitiveSections.1 hs
    refine hclosed.mem_of_enclosing key ?_ s hmem
    intro p hp
    exact hdirect p (contains_directSections.2 ⟨key, hkey, hp⟩)

theorem inSection_iff_prefix {s : String} (hne : s ≠ "") (hdot : s.toList.getLast? ≠ some '.')
    (key : String) : inSection key s = true ↔ s.toList ++ ['.'] <+: key.toList := by
  have hprefix : sectionPrefix s.toList = s.toList ++ ['.'] := by
    rw [sectionPrefix, if_neg]
    simp [hdot, hne]
  rw [inSection, hprefix, List.isPrefixOf_iff_prefix]

/-- The transitive sections of keys are the non-empty texts that some key continues with a dot. They
are the least set that has the direct sections and with each section its parent. The sections that
enclose a key are prefixes of it, each a proper one of the next, and the last one is its parent
section. A name that does not end in a dot is among the transitive sections if and only if some key
lies in it. -/
theorem enclosure_laws (keys : List String) :
    (∀ s, (transitiveSections keys).contains s = true ↔
      s ≠ "" ∧ ∃ key ∈ keys, s.toList ++ ['.'] <+: key.toList) ∧
    IsLeast {S : Set String |
        (∀ s, (directSections keys).contains s = true → s ∈ S) ∧ ParentClosed S}
      {s | (transitiveSections keys).contains s = true} ∧
    (∀ key, (∀ s ∈ enclosingSections key, s.toList <+: key.toList) ∧
      (enclosingSections key).Pairwise (fun a b => a.toList <+: b.toList ∧ a ≠ b) ∧
      (enclosingSections key).getLast? = parentSection key) ∧
    ∀ s, s ≠ "" → s.toList.getLast? ≠ some '.' →
      ((transitiveSections keys).contains s = true ↔ ∃ key ∈ keys, inSection key s = true) := by
  have hcontains : ∀ s, (transitiveSections keys).contains s = true ↔
      s ≠ "" ∧ ∃ key ∈ keys, s.toList ++ ['.'] <+: key.toList := by
    intro s
    rw [contains_transitiveSections]
    simp only [mem_enclosingSections]
    grind
  refine ⟨hcontains, isLeast_transitiveSections keys, ?_, ?_⟩
  · intro key
    refine ⟨?_, pairwise_enclosingSections key, getLast?_enclosingSections key⟩
    intro s hs
    exact (List.prefix_append s.toList ['.']).trans (mem_enclosingSections.1 hs).2
  · intro s hne hdot
    simp only [hcontains, inSection_iff_prefix hne hdot, and_iff_right hne]

/-- Dots that follow one another, and one at the start. A name that ends in a dot is told apart: a
key may lie in it without a dot that follows. -/
theorem dotted_sections :
    let keys := ["a..b", ".x.y"]
    (transitiveSections keys).keys = [".x", "a", "a."] ∧
      ("a" ≠ "" ∧ "a".toList.getLast? ≠ some '.' ∧ ∃ key ∈ keys, inSection key "a" = true) ∧
      inSection "a..b" "a.." = true ∧ (transitiveSections keys).contains "a.." = false := by
  intro keys
  obtain ⟨-, -, -, hnamed⟩ := enclosure_laws keys
  have hne : "a" ≠ "" := by decide
  have hdot : "a".toList.getLast? ≠ some '.' := by decide
  exact ⟨by decide, ⟨hne, hdot, (hnamed "a" hne hdot).1 (by decide)⟩, by decide, by decide⟩

end LayeredConfig.Key
