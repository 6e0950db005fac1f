import LayeredConfig.Pattern.Standard
import LayeredConfig.Proofs.Pattern.Groups
import LayeredConfig.Proofs.Pattern.Matching

/-!
The standard engine keeps to the documented laws. What a group has read does not hang on the closing
text behind it, and the marks and the group of a sequence each add one part to what has been read
before them.
-/

namespace LayeredConfig.Pattern.Syntax

theorem readGroup_of_read? {s : List Char} {r : Regex} (h : read? s = some r) :
    ∃ g, g.regex = r ∧
      readGroup (s.length + 1) (.start .initial []) (s ++ []) = some (g, []) := by
  rw [read?] at h
  split at h
  · rename_i g hgroup
    refine ⟨g, Option.some.inj h, ?_⟩
    rw [List.append_nil]
    exact hgroup
  · cases h

theorem read?_of_readGroup {s : List Char} {g : Progress} {n : Nat}
    (h : readGroup n (.start .initial []) s = some (g, [])) : read? s = some g.regex := by
  have hall : readGroup (s.length + 1) (.start .initial []) (s ++ []) = some (g, []) := by
    rw [← List.append_nil s] at h
    rcases readGroup_closing closing_nil h with hrest | ⟨-, hrest⟩
    · exact hrest closing_nil (by simp)
    · exact hrest closing_nil List.not_mem_nil (by simp)
  rw [List.append_nil] at hall
  rw [read?, hall]

theorem read?_of_closing {s t : List Char} {g : Progress}
    (h : readGroup (s.length + 1) (.start .initial []) s = some (g, ')' :: t)) :
    read? s = none := by
  rw [read?, h]

/-- A group with an expression that does not end in a comment ends where the expression does. -/
theorem readGroup_of_open {s : List Char} {r : Regex} (hread : read? s = some r)
    (hcomment : ¬ Engine.standard.EndsInComment s) :
    ∃ g, g.regex = r ∧ ∀ {b n}, Closing b → (s ++ b).length < n →
      readGroup n (.start .initial []) (s ++ b) = some (g, b) := by
  obtain ⟨g, hr, hgroup⟩ := readGroup_of_read? hread
  rcases readGroup_closing closing_nil hgroup with hrest | ⟨-, hrest⟩
  · exact ⟨g, hr, hrest⟩
  · have hparen := read?_of_readGroup
      (hrest (closing_cons []) (by decide) (Nat.lt_succ_self _))
    exact absurd ⟨Option.isSome_iff_exists.2 ⟨r, hread⟩,
      Option.isSome_iff_exists.2 ⟨g.regex, hparen⟩⟩ hcomment

/-- What a group has read when a closing parenthesis ends it is an expression of its own. -/
theorem exists_of_readGroup {s t : List Char} {g : Progress} {n : Nat}
    (h : readGroup n (.start .initial []) s = some (g, ')' :: t)) :
    ∃ used, s = used ++ ')' :: t ∧ (read? used).isSome = true ∧
      ¬ Engine.standard.EndsInComment used := by
  obtain ⟨used, rfl⟩ := readGroup_suffix h
  rcases readGroup_closing (closing_cons t) h with hrest | ⟨hend, -⟩
  · refine ⟨used, rfl, ?_, ?_⟩
    · have hused := hrest (m := used.length + 1) closing_nil (by simp)
      rw [List.append_nil] at hused
      exact Option.isSome_iff_exists.2 ⟨_, read?_of_readGroup hused⟩
    · rintro ⟨-, hparen⟩
      have hclosing := read?_of_closing (hrest (closing_cons []) (Nat.lt_succ_self _))
      change (read? (used ++ [')'])).isSome = true at hparen
      rw [hclosing] at hparen
      cases hparen
  · cases hend

theorem readGroup_mark {g : Progress} (hflags : g.flags = .initial) {c : Char}
    (hc : c = '^' ∨ c = '$') :
    ∃ l, ∀ n t, readGroup (n + 1) g (c :: t) = readGroup n (g.push (.look l)) t := by
  obtain ⟨flags, parts, earlier, names⟩ := g
  cases hflags
  rcases hc with rfl | rfl
  · exact ⟨.textStart, fun n t => readGroup_of_step rfl (by decide) rfl⟩
  · exact ⟨.textEnd, fun n t => readGroup_of_step rfl (by decide) rfl⟩

theorem readGroup_marks {marks : List Char} (hmarks : ∀ c ∈ marks, c = '^' ∨ c = '$')
    {g : Progress} (hflags : g.flags = .initial) (n : Nat) (t : List Char) :
    ∃ g', g'.flags = .initial ∧ g'.names = g.names ∧
      readGroup (n + marks.length) g (marks ++ t) = readGroup n g' t := by
  induction marks generalizing g with
  | nil => exact ⟨g, hflags, rfl, rfl⟩
  | cons c marks ih =>
      obtain ⟨hc, hmarks⟩ := List.forall_mem_cons.1 hmarks
      obtain ⟨l, hl⟩ := readGroup_mark hflags hc
      obtain ⟨g', hflags', hnames, hread⟩ := ih hmarks (g := g.push (.look l)) hflags
      exact ⟨g', hflags', hnames, (hl _ _).trans hread⟩

theorem readGroup_group {g : Progress} (hflags : g.flags = .initial) (hnames : g.names = [])
    (n : Nat) (s : List Char) :
    readGroup (n + 1) g ('(' :: '?' :: ':' :: s) =
      match readGroup n (.start .initial []) s with
      | some (inner, ')' :: rest) =>
        readGroup n { g.push inner.regex with names := inner.names } rest
      | _ => none := by
  obtain ⟨flags, parts, earlier, names⟩ := g
  obtain rfl : flags = .initial := hflags
  obtain rfl : names = [] := hnames
  have hskip : skipSpace .initial ('(' :: '?' :: ':' :: s) = '(' :: '?' :: ':' :: s := rfl
  have hstep : readStep (readGroup n) ⟨.initial, parts, earlier, []⟩ '(' ('?' :: ':' :: s) =
      match readGroup n (.start .initial []) s with
      | some (inner, ')' :: rest) =>
        some ({ (Progress.mk .initial parts earlier []).push inner.regex with
          names := inner.names }, rest)
      | _ => none := rfl
  rw [readGroup, hskip]
  simp only [hstep]
  rw [if_neg (by decide)]
  split
  · rename_i h
    split at h
    · cases h
      rfl
    · cases h
  · rename_i h
    split at h
    · cases h
    · rfl

/-- A text adds parts to what has been read before it, and names if there have been none. -/
def Adds (t : List Char) (added : List Item) (names : List (List Char)) : Prop :=
  ∀ n parts v, (t ++ v).length < n →
    readGroup (n + added.length) ⟨.initial, parts, [], []⟩ (t ++ v) =
      readGroup n ⟨.initial, added ++ parts, [], names⟩ v

theorem Adds.group {s : List Char} {r : Regex} (hread : read? s = some r)
    (hcomment : ¬ Engine.standard.EndsInComment s) :
    ∃ names, Adds (inGroup s) [.node r] names := by
  obtain ⟨g, rfl, hgroup⟩ := readGroup_of_open hread hcomment
  refine ⟨g.names, ?_⟩
  intro n parts v hn
  have htext : inGroup s ++ v = '(' :: '?' :: ':' :: (s ++ ')' :: v) := by simp [inGroup]
  have hinner : readGroup n (.start .initial []) (s ++ ')' :: v) = some (g, ')' :: v) := by
    refine hgroup (closing_cons v) ?_
    rw [htext] at hn
    simp only [List.length_cons] at hn
    omega
  rw [htext, List.length_singleton, readGroup_group rfl rfl, hinner]
  rfl

theorem Adds.start {t : List Char} {added : List Item} {names : List (List Char)}
    (h : Adds t added names) : Adds ('^' :: t) (added ++ [.node (.look .textStart)]) names := by
  intro n parts v hn
  rw [List.cons_append, List.length_cons] at hn
  have hmark : readGroup (n + added.length + 1) ⟨.initial, parts, [], []⟩ ('^' :: (t ++ v)) =
      readGroup (n + added.length) ⟨.initial, .node (.look .textStart) :: parts, [], []⟩ (t ++ v) :=
    readGroup_of_step rfl (by decide) rfl
  rw [List.length_append, List.length_singleton, ← Nat.add_assoc, List.cons_append, hmark,
    h n _ v (by omega), List.append_assoc]
  rfl

theorem Adds.finish {t : List Char} {added : List Item} {names : List (List Char)}
    (h : Adds t added names) : Adds (t ++ ['$']) (.node (.look .textEnd) :: added) names := by
  intro n parts v hn
  have htext : t ++ ['$'] ++ v = t ++ '$' :: v := by simp
  rw [htext] at hn ⊢
  have hmark : readGroup (n + 1) ⟨.initial, added ++ parts, [], names⟩ ('$' :: v) =
      readGroup n ⟨.initial, .node (.look .textEnd) :: (added ++ parts), [], names⟩ v :=
    readGroup_of_step rfl (by decide) rfl
  rw [List.length_cons, ← Nat.add_assoc, Nat.add_right_comm, h (n + 1) parts _ (by omega), hmark]
  rfl

theorem Adds.read? {t : List Char} {added : List Item} {names : List (List Char)}
    (h : Adds t added names) : Syntax.read? t = some (concat added) := by
  have hread := h (t.length + 1) [] [] (by simp)
  rw [List.append_nil, List.append_nil] at hread
  exact read?_of_readGroup hread

theorem exists_adds {t : List Char} (h : Engine.standard.Sequence t) :
    ∃ added names, Adds t added names := by
  induction h with
  | group hread hcomment =>
      obtain ⟨r, hread⟩ := Option.isSome_iff_exists.1 hread
      obtain ⟨names, hadds⟩ := Adds.group hread hcomment
      exact ⟨_, names, hadds⟩
  | start _ ih =>
      obtain ⟨added, names, hadds⟩ := ih
      exact ⟨_, names, hadds.start⟩
  | finish _ ih =>
      obtain ⟨added, names, hadds⟩ := ih
      exact ⟨_, names, hadds.finish⟩

theorem matches_prepend_iff {r : Regex} {item : Item} {p q : Place} :
    (prepend r item).Matches p q ↔
      ∃ s, (item.regex?.getD .empty).Matches p s ∧ r.Matches s q := by
  unfold prepend
  cases item.regex? with
  | none => simp [Regex.matches_empty_iff]
  | some a =>
      cases r <;> simp [Regex.matches_empty_iff, Regex.matches_cat_iff]

theorem matches_foldl_prepend_iff {parts : List Item} {r : Regex} {p q : Place} :
    (parts.foldl prepend r).Matches p q ↔ ∃ s, (concat parts).Matches p s ∧ r.Matches s q := by
  induction parts generalizing r q with
  | nil => simp [concat, Regex.matches_empty_iff]
  | cons item parts ih =>
      rw [concat, List.foldl_cons, List.foldl_cons, ih]
      simp only [ih, matches_prepend_iff, Regex.matches_empty_iff]
      constructor
      · rintro ⟨s, hparts, t, hitem, hr⟩
        exact ⟨t, ⟨s, hparts, t, hitem, rfl⟩, hr⟩
      · rintro ⟨t, ⟨s, hparts, _, hitem, rfl⟩, hr⟩
        exact ⟨s, hparts, _, hitem, hr⟩

end LayeredConfig.Pattern.Syntax

namespace LayeredConfig.Pattern.Engine

open Syntax

theorem standard_group {s : List Char} {r : Regex} (hread : read? s = some r)
    (hcomment : ¬ standard.EndsInComment s) : read? (inGroup s) = some r := by
  obtain ⟨names, hadds⟩ := Adds.group hread hcomment
  exact hadds.read?

theorem standard_start {t : List Char} {r : Regex} (ht : standard.Sequence t)
    (hread : read? t = some r) :
    ∃ tied, read? ('^' :: t) = some tied ∧
      ∀ p q, tied.Matches p q ↔ p.before = [] ∧ r.Matches p q := by
  obtain ⟨added, names, hadds⟩ := exists_adds ht
  obtain rfl := Option.some.inj (hadds.read?.symm.trans hread)
  refine ⟨_, hadds.start.read?, ?_⟩
  intro p q
  rw [concat, List.foldl_append]
  simp only [List.foldl_cons, List.foldl_nil, matches_prepend_iff, Item.regex?, Option.getD_some,
    Regex.matches_look_iff, Look.holds, decide_eq_true_eq]
  constructor
  · rintro ⟨_, ⟨hbefore, rfl⟩, hmatch⟩
    exact ⟨hbefore, hmatch⟩
  · rintro ⟨hbefore, hmatch⟩
    exact ⟨p, ⟨hbefore, rfl⟩, hmatch⟩

theorem standard_finish {t : List Char} {r : Regex} (ht : standard.Sequence t)
    (hread : read? t = some r) :
    ∃ tied, read? (t ++ ['$']) = some tied ∧
      ∀ p q, tied.Matches p q ↔ r.Matches p q ∧ q.after = [] := by
  obtain ⟨added, names, hadds⟩ := exists_adds ht
  obtain rfl := Option.some.inj (hadds.read?.symm.trans hread)
  refine ⟨_, hadds.finish.read?, ?_⟩
  intro p q
  have hmark : prepend .empty (.node (.look .textEnd)) = .look .textEnd := rfl
  rw [concat, List.foldl_cons, matches_foldl_prepend_iff, hmark]
  simp only [Regex.matches_look_iff, Look.holds, decide_eq_true_eq]
  constructor
  · rintro ⟨_, hmatch, hafter, rfl⟩
    exact ⟨hmatch, hafter⟩
  · rintro ⟨hmatch, hafter⟩
    exact ⟨q, hmatch, hafter, rfl⟩

theorem standard_closed {marks t : List Char} (hmarks : ∀ c ∈ marks, c = '^' ∨ c = '$')
    (h : (read? (marks ++ '(' :: '?' :: ':' :: t)).isSome = true) :
    ∃ used rest, t = used ++ ')' :: rest ∧ (read? used).isSome = true ∧
      ¬ standard.EndsInComment used := by
  obtain ⟨r, hread⟩ := Option.isSome_iff_exists.1 h
  obtain ⟨g, -, hgroup⟩ := readGroup_of_read? hread
  have hlength : (marks ++ '(' :: '?' :: ':' :: t).length + 1 = t.length + 3 + 1 + marks.length := by
    simp only [List.length_append, List.length_cons]
    omega
  obtain ⟨g', hflags, hnames, heq⟩ := readGroup_marks hmarks (g := .start .initial []) rfl
    (t.length + 3 + 1) ('(' :: '?' :: ':' :: t)
  rw [List.append_nil, hlength, heq, readGroup_group hflags hnames] at hgroup
  split at hgroup
  · rename_i inner rest hinner
    obtain ⟨used, hused⟩ := exists_of_readGroup hinner
    exact ⟨used, rest, hused⟩
  · cases hgroup

theorem standard_unopened {s t : List Char} (hread : (read? s).isSome = true)
    (hcomment : ¬ standard.EndsInComment s) : read? (s ++ ')' :: t) = none := by
  obtain ⟨r, hread⟩ := Option.isSome_iff_exists.1 hread
  obtain ⟨g, -, hgroup⟩ := readGroup_of_open hread hcomment
  exact read?_of_closing (hgroup (closing_cons t) (Nat.lt_succ_self _))

/-- The laws hold of expressions as they are read and matched here. -/
theorem standard_documented : standard.Documented where
  reaches := Regex.Matches.reaches
  isMatch_iff := Regex.isMatch_iff
  group hread hcomment := ⟨_, standard_group hread hcomment, fun _ _ => Iff.rfl⟩
  start := standard_start
  finish := standard_finish
  closed := standard_closed
  unopened := standard_unopened

end LayeredConfig.Pattern.Engine
