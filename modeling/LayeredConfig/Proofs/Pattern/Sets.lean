import LayeredConfig.Proofs.Pattern.Reading
import Mathlib.Data.List.TakeWhile

/-!
How bracketed sets are read. A set ends at its own closing bracket, so no closing text behind it
has a part in it.
-/

namespace LayeredConfig.Pattern.Syntax

theorem not_mem_of_named {name : List Char} {set : CharSet}
    (h : CharSet.named? (String.ofList name) = some set) : ')' ∉ name := by
  have htext : ')' ∉ (String.ofList name).toList := by
    generalize String.ofList name = text at h ⊢
    unfold CharSet.named? at h
    split at h <;> first | decide | cases h
  rwa [String.toList_ofList] at htext

theorem readClassName_eq_some_iff {s rest : List Char} {set : CharSet} :
    readClassName s = some (set, rest) ↔
      ∃ name, s = name ++ ':' :: ']' :: rest ∧ ':' ∉ name ∧
        CharSet.named? (String.ofList name) = some set := by
  constructor
  · intro h
    unfold readClassName at h
    split at h
    · rename_i after hdrop
      obtain ⟨_, hnamed, ⟨⟩⟩ := Option.map_eq_some_iff.1 h
      refine ⟨s.takeWhile (· ≠ ':'), ?_, ?_, hnamed⟩
      · rw [← hdrop, List.takeWhile_append_dropWhile]
      · intro hmem
        simpa using List.mem_takeWhile_imp hmem
    · cases h
  · rintro ⟨name, rfl, hname, hnamed⟩
    have hall : ∀ c ∈ name, decide (c ≠ ':') = true := by
      intro c hc
      rw [decide_eq_true_iff]
      rintro rfl
      exact hname hc
    unfold readClassName
    rw [List.dropWhile_append_of_pos hall, List.takeWhile_append_of_pos hall]
    simp [hnamed]

theorem readClassName_append {a : List Char} (ha : Closing a) (s : List Char) :
    readClassName (s ++ a) = (readClassName s).map fun (set, rest) => (set, rest ++ a) := by
  apply Option.ext
  rintro ⟨set, rest⟩
  rw [readClassName_eq_some_iff, Option.map_eq_some_iff]
  constructor
  · rintro ⟨name, htext, hname, hnamed⟩
    have hmark : ')' ∉ name ++ [':', ']'] := by
      simp [not_mem_of_named hnamed]
    have hcut : s ++ a = (name ++ [':', ']']) ++ rest := by
      rw [htext, List.append_assoc]
      rfl
    obtain ⟨v, rfl, rfl⟩ := exists_of_append_closing ha hmark hcut
    exact ⟨(set, v), readClassName_eq_some_iff.2 ⟨name, by simp, hname, hnamed⟩, rfl⟩
  · rintro ⟨⟨_, rest⟩, hread, ⟨⟩⟩
    obtain ⟨name, rfl, hname, hnamed⟩ := readClassName_eq_some_iff.1 hread
    exact ⟨name, by simp, hname, hnamed⟩

theorem readNamed_of_plain {t : List Char} (h : ∀ u, t ≠ '^' :: u) :
    readNamed ('[' :: ':' :: t) = readClassName t := by
  rw [readNamed]
  exact h

theorem readNamed_of_unopened {s : List Char} (h : ∀ t, s ≠ '[' :: ':' :: t) :
    readNamed s = none := by
  rw [readNamed]
  · exact fun u heq => h _ heq
  · exact h

theorem readNamed_append {a : List Char} (ha : Closing a) (d : Char) (s : List Char) :
    readNamed (d :: (s ++ a)) = (readNamed (d :: s)).map fun (set, rest) => (set, rest ++ a) := by
  by_cases hopening : d = '[' ∧ ∃ t, s = ':' :: t
  · obtain ⟨rfl, t, rfl⟩ := hopening
    by_cases hnegated : ∃ u, t = '^' :: u
    · obtain ⟨u, rfl⟩ := hnegated
      simp only [List.cons_append, readNamed, readClassName_append ha, Option.map_map]
      rfl
    · have hplain : ∀ u, t ≠ '^' :: u := fun u hu => hnegated ⟨u, hu⟩
      rw [List.cons_append, readNamed_of_plain hplain,
        readNamed_of_plain (append_ne_cons ha (by decide) hplain), readClassName_append ha]
  · rw [readNamed_of_unopened, readNamed_of_unopened]
    · rfl
    · rintro t ⟨⟩
      exact hopening ⟨rfl, t, rfl⟩
    · rintro t heq
      obtain ⟨hbracket, hcolon⟩ := List.cons.inj heq
      refine append_ne_cons ha (by decide) ?_ t hcolon
      exact fun u hu => hopening ⟨hbracket, u, hu⟩

theorem readNamed_behind {s rest : List Char} {set : CharSet}
    (h : readNamed s = some (set, rest)) : Behind rest s := by
  have hname : ∀ {t set}, readClassName t = some (set, rest) → rest <:+ t := by
    intro t set h
    obtain ⟨name, rfl, -⟩ := readClassName_eq_some_iff.1 h
    exact ⟨name ++ [':', ']'], by simp⟩
  rw [readNamed.eq_def] at h
  split at h
  · obtain ⟨_, hread, ⟨⟩⟩ := Option.map_eq_some_iff.1 h
    exact .of_cons (((hname hread).trans (List.suffix_cons ..)).trans (List.suffix_cons ..))
  · exact .of_cons ((hname h).trans (List.suffix_cons ..))
  · cases h

theorem readSetItem_of_ne {d : Char} (hescape : d ≠ '\\') (flags : Flags) (s : List Char) :
    readSetItem flags (d :: s) = (setCharacter? flags d).map (·, s) := by
  rw [readSetItem]
  exact hescape

theorem readSetItem_reading (flags : Flags) : Reading (readSetItem flags) where
  behind := by
    intro s x rest h
    rw [readSetItem.eq_def] at h
    split at h
    · cases h
    · split at h
      · obtain ⟨_, -, ⟨⟩⟩ := Option.map_eq_some_iff.1 h
        exact .of_cons ((readEscape_reading flags).behind ‹_›).suffix
      · cases h
        exact .of_cons ((readEscape_reading flags).behind ‹_›).suffix
      · cases h
    · obtain ⟨_, -, ⟨⟩⟩ := Option.map_eq_some_iff.1 h
      exact .of_cons List.suffix_rfl
  cons := by
    intro d ds c' a b x ha hb h
    by_cases hescape : d = '\\'
    · subst hescape
      simp only [readSetItem] at h ⊢
      split at h
      · rename_i hread
        obtain ⟨_, hcharacter, heq⟩ := Option.map_eq_some_iff.1 h
        obtain ⟨rfl, rfl⟩ := Prod.mk.inj heq
        rw [(readEscape_reading flags).closing ha hb hread]
        exact Option.map_eq_some_iff.2 ⟨_, hcharacter, rfl⟩
      · rename_i hread
        obtain ⟨rfl, rfl⟩ := Prod.mk.inj (Option.some.inj h)
        rw [(readEscape_reading flags).closing ha hb hread]
      · cases h
    · rw [readSetItem_of_ne hescape] at h ⊢
      obtain ⟨_, hcharacter, heq⟩ := Option.map_eq_some_iff.1 h
      obtain ⟨rfl, hds⟩ := Prod.mk.inj heq
      rw [hcharacter, List.append_cancel_right hds]
      rfl

theorem isRangeless_of_closing {a : List Char} (ha : Closing a) : isRangeless a = false := by
  rcases ha.cases with rfl | ⟨rest, rfl⟩
  · rfl
  · rfl

theorem readRange_eq_some_iff {flags : Flags} {s rest : List Char} {set : CharSet} :
    readRange flags s = some (set, rest) ↔
      ∃ first r d after, readSetItem flags s = some (first, r) ∧ skipSpace flags r = d :: after ∧
        (((d ≠ '-' ∨ isRangeless (skipSpace flags after) = true) ∧
            itemSet first = set ∧ d :: after = rest) ∨
          (d = '-' ∧ isRangeless (skipSpace flags after) = false ∧
            ∃ second, readSetItem flags (skipSpace flags after) = some (second, rest) ∧
              range? first second = some set)) := by
  constructor
  · intro h
    obtain ⟨⟨first, r⟩, hitem, h⟩ := Option.bind_eq_some_iff.1 h
    cases hskip : skipSpace flags r with
    | nil =>
        simp only [hskip] at h
        cases h
    | cons d after =>
        simp only [hskip] at h
        refine ⟨first, r, d, after, hitem, hskip, ?_⟩
        split at h
        · rename_i halone
          cases h
          exact .inl ⟨by simpa using halone, rfl, rfl⟩
        · rename_i hrange
          obtain ⟨hd, hafter⟩ : d = '-' ∧ isRangeless (skipSpace flags after) = false := by
            simpa using hrange
          obtain ⟨⟨second, _⟩, hsecond, h⟩ := Option.bind_eq_some_iff.1 h
          obtain ⟨_, hset, ⟨⟩⟩ := Option.bind_eq_some_iff.1 h
          exact .inr ⟨hd, hafter, second, hsecond, hset⟩
  · rintro ⟨first, r, d, after, hitem, hskip, hrest⟩
    rw [readRange, hitem]
    simp only [Option.bind_eq_bind, Option.bind_some, hskip]
    rcases hrest with ⟨halone, rfl, rfl⟩ | ⟨rfl, hafter, second, hsecond, hset⟩
    · rw [if_pos (by simpa using halone)]
    · rw [if_neg (by simpa using hafter), hsecond]
      simp [hset]

theorem readRange_behind {flags : Flags} {s rest : List Char} {set : CharSet}
    (h : readRange flags s = some (set, rest)) : Behind rest s := by
  obtain ⟨first, r, d, after, hitem, hskip, hrest⟩ := readRange_eq_some_iff.1 h
  have hafter : d :: after <:+ r := hskip ▸ skipSpace_suffix flags r
  have hr := ((readSetItem_reading flags).behind hitem).trans hafter
  rcases hrest with ⟨-, -, rfl⟩ | ⟨-, -, second, hsecond, -⟩
  · exact hr
  · have hbehind := (readSetItem_reading flags).behind hsecond
    exact hr.trans ((hbehind.of_suffix (skipSpace_suffix flags after)).suffix.trans
      (List.suffix_cons d after))

/-- A range does not hang on a closing text behind it. There is one exception, a hyphen on its own
with a comment behind it that reaches into the closing text. -/
theorem readRange_closing {flags : Flags} {a b c c' : List Char} {set : CharSet} (ha : Closing a)
    (hb : Closing b) (hne : c' ≠ []) (h : readRange flags (c ++ a) = some (set, c' ++ a)) :
    readRange flags (c ++ b) = some (set, c' ++ b) ∨
      ∃ t, c' = '-' :: t ∧ ∀ e, skipSpace flags (t ++ e) = skipBlanks true e := by
  obtain ⟨first, r, d, after, hitem, hskip, hrest⟩ := readRange_eq_some_iff.1 h
  have hafter : ∃ t, after = t ++ a := by
    rcases hrest with ⟨-, -, hrest⟩ | ⟨-, -, second, hsecond, -⟩
    · cases c' with
      | nil => exact absurd rfl hne
      | cons e t => exact ⟨t, (List.cons.inj hrest).2⟩
    · exact exists_append_of_suffix
        (((readSetItem_reading flags).behind hsecond).suffix.trans (skipSpace_suffix flags after))
  obtain ⟨t, rfl⟩ := hafter
  have hskip : skipSpace flags r = (d :: t) ++ a := hskip
  obtain ⟨r, rfl⟩ : ∃ r', r = r' ++ a := exists_append_of_suffix (hskip ▸ skipSpace_suffix flags r)
  have hitem' := (readSetItem_reading flags).closing ha hb hitem
  have hskip' := skipSpace_closing ha hb (by simp) hskip
  rcases hrest with ⟨halone, rfl, hrest⟩ | ⟨rfl, hafter, second, hsecond, hset⟩
  · have hc' : d :: t = c' := List.append_cancel_right ((List.cons_append ..).trans hrest)
    subst hc'
    by_cases hd : d = '-'
    · subst hd
      have hhyphen := halone.resolve_left (fun h => h rfl)
      -- The look-ahead for a bracket or a second hyphen stops before the text behind, or is lost in
      -- a comment; it cannot stop at the text behind, which starts with neither.
      rcases skipSpace_cases flags t with ⟨e, es, hnext⟩ | hnext | hnext
      · rw [hnext] at hhyphen
        refine .inl (readRange_eq_some_iff.2
          ⟨first, r ++ b, '-', t ++ b, hitem', hskip', .inl ⟨.inr ?_, rfl, rfl⟩⟩)
        rw [hnext]
        exact hhyphen
      · rw [hnext a ha, isRangeless_of_closing ha] at hhyphen
        cases hhyphen
      · exact .inr ⟨t, rfl, hnext⟩
    · exact .inl (readRange_eq_some_iff.2
        ⟨first, r ++ b, d, t ++ b, hitem', hskip', .inl ⟨.inl hd, rfl, rfl⟩⟩)
  · obtain ⟨u, hu⟩ : ∃ u, skipSpace flags (t ++ a) = u ++ a :=
      exists_append_of_suffix ((readSetItem_reading flags).behind hsecond).suffix
    rw [hu] at hsecond hafter
    obtain ⟨e, es, rfl⟩ := ((readSetItem_reading flags).behind hsecond).exists_cons
    have hu' := skipSpace_closing ha hb (by simp) hu
    refine .inl (readRange_eq_some_iff.2 ⟨first, r ++ b, '-', t ++ b, hitem', hskip',
      .inr ⟨rfl, ?_, second, ?_, hset⟩⟩)
    · rw [hu']
      exact hafter
    · rw [hu']
      exact (readSetItem_reading flags).closing ha hb hsecond

theorem hyphens_of_hyphen {flags : Flags} {s rest : List Char}
    (h : skipSpace flags s = '-' :: rest) (n : Nat) (acc : CharSet) :
    readOpening.hyphens flags (n + 1) acc s =
      readOpening.hyphens flags n (.union acc (.single '-')) rest := by
  rw [readOpening.hyphens]
  exact h

theorem hyphens_of_other {flags : Flags} {s : List Char}
    (h : ∀ rest, skipSpace flags s ≠ '-' :: rest) (n : Nat) (acc : CharSet) :
    readOpening.hyphens flags n acc s = (acc, skipSpace flags s) := by
  rw [readOpening.hyphens.eq_def]
  split
  · exact absurd ‹_› (h _)
  · rfl

theorem hyphens_suffix (flags : Flags) (n : Nat) (acc : CharSet) (s : List Char) :
    (readOpening.hyphens flags n acc s).2 <:+ s := by
  induction n generalizing acc s with
  | zero => exact skipSpace_suffix flags s
  | succ n ih =>
      by_cases hskip : ∃ rest, skipSpace flags s = '-' :: rest
      · obtain ⟨rest, hskip⟩ := hskip
        rw [hyphens_of_hyphen hskip]
        exact ((ih _ rest).trans (List.suffix_cons '-' rest)).trans
          (hskip ▸ skipSpace_suffix flags s)
      · rw [hyphens_of_other fun rest h => hskip ⟨rest, h⟩]
        exact skipSpace_suffix flags s

theorem hyphens_closing {flags : Flags} {a b c c' : List Char} {acc acc' : CharSet} {n m : Nat}
    (ha : Closing a) (hb : Closing b) (hne : c' ≠ []) (hn : (c ++ a).length ≤ n)
    (hm : (c ++ b).length ≤ m)
    (h : readOpening.hyphens flags n acc (c ++ a) = (acc', c' ++ a)) :
    readOpening.hyphens flags m acc (c ++ b) = (acc', c' ++ b) := by
  induction n generalizing acc c m with
  | zero =>
      have hsuffix := hyphens_suffix flags 0 acc (c ++ a)
      rw [h, List.eq_nil_of_length_eq_zero (Nat.le_zero.1 hn), List.suffix_nil,
        List.append_eq_nil_iff] at hsuffix
      exact absurd hsuffix.1 hne
  | succ n ih =>
      by_cases hskip : ∃ rest, skipSpace flags (c ++ a) = '-' :: rest
      · obtain ⟨rest, hskip⟩ := hskip
        have hsuffix := hyphens_suffix flags n (.union acc (.single '-')) rest
        rw [hyphens_of_hyphen hskip] at h
        rw [h] at hsuffix
        obtain ⟨r, rfl⟩ := exists_append_of_suffix hsuffix
        have hskip : skipSpace flags (c ++ a) = ('-' :: r) ++ a := hskip
        have hskip' := skipSpace_closing ha hb (by simp) hskip
        have hlength := (hskip ▸ skipSpace_suffix flags (c ++ a)).length_le
        have hlength' := (hskip' ▸ skipSpace_suffix flags (c ++ b)).length_le
        rw [List.cons_append, List.length_cons] at hlength hlength'
        obtain ⟨m, rfl⟩ : ∃ k, m = k + 1 := ⟨m - 1, by omega⟩
        rw [hyphens_of_hyphen hskip']
        exact ih (by omega) (by omega) h
      · rw [hyphens_of_other fun rest h => hskip ⟨rest, h⟩] at h
        obtain ⟨rfl, hrest⟩ := Prod.mk.inj h
        have hrest' := skipSpace_closing ha hb (by simp [hne]) hrest
        rw [hyphens_of_other, hrest']
        intro rest heq
        rw [hrest'] at heq
        cases c' with
        | nil => exact hne rfl
        | cons d c' =>
            obtain ⟨rfl, -⟩ := List.cons.inj heq
            exact hskip ⟨_, hrest⟩

theorem readOpening_suffix (flags : Flags) (s : List Char) : (readOpening flags s).2 <:+ s := by
  have hsuffix := hyphens_suffix flags s.length .nothing s
  rw [readOpening]
  split
  · rename_i rest heq
    rw [heq] at hsuffix
    exact (List.suffix_cons ']' rest).trans hsuffix
  · exact hsuffix

theorem readOpening_closing {flags : Flags} {a b c c' : List Char} {start : CharSet}
    (ha : Closing a) (hb : Closing b) (hne : c' ≠ [])
    (h : readOpening flags (c ++ a) = (start, c' ++ a)) :
    readOpening flags (c ++ b) = (start, c' ++ b) := by
  rw [readOpening] at h ⊢
  split at h
  · rename_i rest heq
    obtain ⟨rfl, rfl⟩ := Prod.mk.inj h
    rw [hyphens_closing (n := (c ++ a).length) ha hb (List.cons_ne_nil ']' c') le_rfl le_rfl heq]
    rfl
  · rename_i hother
    rw [hyphens_closing ha hb hne le_rfl le_rfl h]
    split
    · rename_i rest heq
      obtain ⟨rfl, hrest⟩ := Prod.mk.inj heq
      cases c' with
      | nil => exact absurd rfl hne
      | cons d c' =>
          obtain ⟨rfl, -⟩ := List.cons.inj hrest
          exact absurd h (hother (c' ++ a))
    · rfl

theorem readNegation_suffix (flags : Flags) (s : List Char) : (readNegation flags s).2 <:+ s := by
  have hsuffix := skipSpace_suffix flags s
  rw [readNegation]
  split
  · rename_i rest hskip
    rw [hskip] at hsuffix
    exact (List.suffix_cons '^' rest).trans hsuffix
  · exact hsuffix

theorem readNegation_closing {flags : Flags} {a b c c' : List Char} {negated : Bool}
    (ha : Closing a) (hb : Closing b) (hne : c' ≠ [])
    (h : readNegation flags (c ++ a) = (negated, c' ++ a)) :
    readNegation flags (c ++ b) = (negated, c' ++ b) := by
  rw [readNegation] at h ⊢
  split at h
  · rename_i rest hskip
    obtain ⟨rfl, rfl⟩ := Prod.mk.inj h
    have hskip : skipSpace flags (c ++ a) = ('^' :: c') ++ a := hskip
    rw [skipSpace_closing ha hb (by simp) hskip]
    rfl
  · rename_i hother
    obtain ⟨rfl, hskip⟩ := Prod.mk.inj h
    rw [skipSpace_closing ha hb (by simp [hne]) hskip]
    split
    · rename_i rest heq
      cases c' with
      | nil => exact absurd rfl hne
      | cons d c' =>
          obtain ⟨rfl, -⟩ := List.cons.inj heq
          exact absurd hskip (hother (c' ++ a))
    · rfl

theorem readOperation_append {a : List Char} (ha : Closing a) (d : Char) (s : List Char) :
    readOperation (d :: (s ++ a)) =
      (readOperation (d :: s)).map fun (operation, rest) => (operation, rest ++ a) := by
  cases s with
  | nil =>
      rcases ha.cases with rfl | ⟨rest, rfl⟩
      · simp [readOperation]
      · simp [readOperation]
  | cons e s =>
      rw [List.cons_append]
      unfold readOperation
      split <;> simp_all

theorem readOperation_behind {s rest : List Char} {operation : CharSet → CharSet → CharSet}
    (h : readOperation s = some (operation, rest)) : Behind rest s := by
  rw [readOperation.eq_def] at h
  split at h <;> cases h <;> exact .of_cons (List.suffix_cons ..)

theorem readPart_behind {flags : Flags} {nested : List Char → Option (CharSet × List Char)}
    (hnested : ∀ {s set rest}, nested s = some (set, rest) → rest <:+ s) {d : Char}
    {s rest : List Char} {set : CharSet} (h : readPart flags nested d s = some (set, rest)) :
    Behind rest (d :: s) := by
  rw [readPart] at h
  split at h
  · cases h
    exact readNamed_behind ‹_›
  · split at h
    · exact .of_cons (hnested h)
    · exact readRange_behind h

theorem readSet_suffix_and_behind (n : Nat) :
    (∀ {flags s set rest}, readSet n flags s = some (set, rest) → rest <:+ s) ∧
      ∀ {flags pending acc s set rest},
        readSetRest n flags pending acc s = some (set, rest) →
          Behind rest (skipSpace flags s) := by
  induction n with
  | zero =>
      refine ⟨?_, ?_⟩
      · intro flags s set rest h
        cases h
      · intro flags pending acc s set rest h
        cases h
  | succ n ih =>
      obtain ⟨ihset, ihrest⟩ := ih
      refine ⟨?_, ?_⟩
      · intro flags s set rest h
        rw [readSet] at h
        obtain ⟨⟨_, _⟩, hread, h⟩ := Option.bind_eq_some_iff.1 h
        obtain ⟨_, -, ⟨⟩⟩ := Option.map_eq_some_iff.1 h
        exact (((ihrest hread).suffix.trans (skipSpace_suffix flags _)).trans
          (readOpening_suffix flags _)).trans (readNegation_suffix flags s)
      · intro flags pending acc s set rest h
        rw [readSetRest] at h
        cases hskip : skipSpace flags s with
        | nil =>
            simp only [hskip] at h
            cases h
        | cons d t =>
            simp only [hskip] at h
            split at h
            · cases h
              exact .of_cons List.suffix_rfl
            · split at h
              · exact (readOperation_behind ‹_›).trans
                  ((ihrest h).of_suffix (skipSpace_suffix flags _)).suffix
              · split at h
                · exact (readPart_behind ihset ‹_›).trans
                    ((ihrest h).of_suffix (skipSpace_suffix flags _)).suffix
                · cases h

theorem readSet_suffix {n : Nat} {flags : Flags} {s rest : List Char} {set : CharSet}
    (h : readSet n flags s = some (set, rest)) : rest <:+ s :=
  (readSet_suffix_and_behind n).1 h

theorem readSetRest_behind {n : Nat} {flags : Flags} {pending : Pending} {acc : CharSet}
    {s rest : List Char} {set : CharSet}
    (h : readSetRest n flags pending acc s = some (set, rest)) :
    Behind rest (skipSpace flags s) :=
  (readSet_suffix_and_behind n).2 h

theorem skipSpace_hyphen (flags : Flags) (s : List Char) :
    skipSpace flags ('-' :: s) = '-' :: s := by
  cases hflags : flags.extended with
  | false => simp [skipSpace, hflags]
  | true =>
      have hwhite : Text.isWhite '-' = false := by decide
      simp [skipSpace, hflags, skipBlanks, hwhite]

theorem readPart_hyphen {flags : Flags} {nested : List Char → Option (CharSet × List Char)}
    {s rest : List Char} {set : CharSet} (h : readPart flags nested '-' s = some (set, rest)) :
    rest <:+ skipSpace flags s := by
  rw [readPart, readNamed_of_unopened (by simp)] at h
  obtain ⟨first, r, d, after, hitem, hskip, hrest⟩ := readRange_eq_some_iff.1 h
  rw [readSetItem_of_ne (by decide)] at hitem
  obtain ⟨_, -, ⟨⟩⟩ := Option.map_eq_some_iff.1 hitem
  rw [hskip]
  rcases hrest with ⟨-, -, rfl⟩ | ⟨-, -, second, hsecond, -⟩
  · exact List.suffix_rfl
  · have hbehind := (readSetItem_reading flags).behind hsecond
    exact (hbehind.suffix.trans (skipSpace_suffix flags after)).trans (List.suffix_cons d after)

theorem readSetRest_hyphen {n : Nat} {flags : Flags} {pending : Pending} {acc : CharSet}
    {s rest : List Char} {set : CharSet}
    (h : readSetRest n flags pending acc ('-' :: s) = some (set, rest)) :
    Behind rest (skipSpace flags s) := by
  cases n with
  | zero => cases h
  | succ n =>
      rw [readSetRest] at h
      simp only [skipSpace_hyphen] at h
      rw [if_neg (by decide)] at h
      split at h
      · rename_i operation t hoperation
        rw [readOperation.eq_def] at hoperation
        split at hoperation <;> rename_i heq <;> cases hoperation <;> cases heq
        rw [skipSpace_hyphen]
        exact .of_cons ((readSetRest_behind h).of_suffix (skipSpace_suffix flags _)).suffix
      · split at h
        · exact (readSetRest_behind h).of_suffix
            ((skipSpace_suffix flags _).trans (readPart_hyphen ‹_›))
        · cases h

theorem readPart_closing {flags : Flags} {nested nested' : List Char → Option (CharSet × List Char)}
    {a b r r' : List Char} {d : Char} {set : CharSet} (ha : Closing a) (hb : Closing b)
    (hnested : nested (r ++ a) = some (set, r' ++ a) → nested' (r ++ b) = some (set, r' ++ b))
    (hne : r' ≠ []) (h : readPart flags nested d (r ++ a) = some (set, r' ++ a)) :
    readPart flags nested' d (r ++ b) = some (set, r' ++ b) ∨
      ∃ t, r' = '-' :: t ∧ ∀ e, skipSpace flags (t ++ e) = skipBlanks true e := by
  rw [readPart, readNamed_append ha] at h
  rw [readPart, readNamed_append hb]
  cases hnamed : readNamed (d :: r) with
  | some named =>
      obtain ⟨set', u⟩ := named
      rw [hnamed] at h
      obtain ⟨rfl, hu⟩ := Prod.mk.inj (Option.some.inj h)
      rw [← List.append_cancel_right hu]
      exact .inl rfl
  | none =>
      rw [hnamed] at h
      simp only [Option.map_none] at h ⊢
      split at h
      · rename_i hbracket
        rw [if_pos hbracket]
        exact .inl (hnested h)
      · rename_i hbracket
        rw [if_neg hbracket]
        exact readRange_closing (c := d :: r) ha hb hne h

/-- With so many steps, what is read of a set does not hang on a closing text behind it; the steps
with another text there are bounded by its length alone. -/
def SetCloses (n : Nat) : Prop :=
  ∀ {flags : Flags} {a b c c' : List Char} {set : CharSet} {m : Nat}, Closing a → Closing b →
    2 * (c ++ b).length + 2 ≤ m → readSet n flags (c ++ a) = some (set, c' ++ a) →
    readSet m flags (c ++ b) = some (set, c' ++ b)

def ItemsClose (n : Nat) : Prop :=
  ∀ {flags : Flags} {pending : Pending} {acc : CharSet} {a b c c' : List Char} {set : CharSet}
    {m : Nat}, Closing a → Closing b → 2 * (c ++ b).length + 1 ≤ m →
    readSetRest n flags pending acc (c ++ a) = some (set, c' ++ a) →
    readSetRest m flags pending acc (c ++ b) = some (set, c' ++ b)

theorem setCloses_succ {n : Nat} (hitems : ItemsClose n) : SetCloses (n + 1) := by
  intro flags a b c c' set m ha hb hm h
  obtain ⟨m, rfl⟩ : ∃ k, m = k + 1 := ⟨m - 1, by omega⟩
  rw [readSet] at h ⊢
  cases hnegation : readNegation flags (c ++ a) with
  | mk negated s =>
      cases hopening : readOpening flags s with
      | mk start t =>
          simp only [hnegation, hopening] at h
          obtain ⟨⟨_, _⟩, hread, h⟩ := Option.bind_eq_some_iff.1 h
          obtain ⟨_, hbounded, heq⟩ := Option.map_eq_some_iff.1 h
          obtain ⟨rfl, rfl⟩ := Prod.mk.inj heq
          have ht := (readSetRest_behind hread).of_suffix (skipSpace_suffix flags t)
          obtain ⟨t, rfl⟩ := exists_append_of_suffix ht.suffix
          have hts := congrArg Prod.snd hopening ▸ readOpening_suffix flags s
          obtain ⟨s, rfl⟩ := exists_append_of_suffix hts
          obtain ⟨_, _, rfl⟩ := ht.exists_cons
          obtain ⟨_, _, rfl⟩ := (ht.of_suffix hts).exists_cons
          have hnegation' := readNegation_closing ha hb (by simp) hnegation
          have hopening' := readOpening_closing ha hb (by simp) hopening
          have hs := congrArg Prod.snd hnegation' ▸ readNegation_suffix flags (c ++ b)
          have ht' := congrArg Prod.snd hopening' ▸ readOpening_suffix flags _
          have hlength := (ht'.trans hs).length_le
          simp only [hnegation', hopening']
          rw [hitems ha hb (by simp only at hlength; omega) hread]
          exact Option.map_eq_some_iff.2 ⟨_, hbounded, rfl⟩

theorem part_closes {n m : Nat} {flags : Flags} {pending : Pending} {acc : CharSet}
    {a b c' r t : List Char} {d : Char} {part set : CharSet} (hset : SetCloses n)
    (hitems : ItemsClose n) (ha : Closing a) (hb : Closing b) (hm : 2 * (r ++ b).length + 2 ≤ m)
    (hpart : readPart flags (readSet n flags) d (r ++ a) = some (part, t))
    (h : readSetRest n flags pending (.union acc part) t = some (set, c' ++ a)) :
    ∃ t', readPart flags (readSet m flags) d (r ++ b) = some (part, t') ∧
      readSetRest m flags pending (.union acc part) t' = some (set, c' ++ b) := by
  have hrest := (readSetRest_behind h).of_suffix (skipSpace_suffix flags t)
  obtain ⟨t, rfl⟩ := exists_append_of_suffix hrest.suffix
  obtain ⟨e, es, rfl⟩ := hrest.exists_cons
  have hnested : readSet n flags (r ++ a) = some (part, e :: es ++ a) →
      readSet m flags (r ++ b) = some (part, e :: es ++ b) := hset ha hb hm
  rcases readPart_closing ha hb hnested (by simp) hpart with hpart' | ⟨v, hv, hopen⟩
  · refine ⟨_, hpart', hitems ha hb ?_ h⟩
    have ht := (readPart_behind readSet_suffix hpart').length
    rw [List.length_cons] at ht
    omega
  · -- The comment would end within the text behind, and so would the set.
    obtain ⟨rfl, rfl⟩ := List.cons.inj hv
    rw [List.cons_append] at h
    have hshort := (readSetRest_hyphen h).length
    have hlong := (skipBlanks_suffix true a).length_le
    rw [hopen, List.length_append] at hshort
    omega

theorem itemsClose_succ {n : Nat} (hset : SetCloses n) (hitems : ItemsClose n) :
    ItemsClose (n + 1) := by
  intro flags pending acc a b c c' set m ha hb hm h
  obtain ⟨m, rfl⟩ : ∃ k, m = k + 1 := ⟨m - 1, by omega⟩
  have hbehind := readSetRest_behind h
  rw [readSetRest] at h
  cases hskip : skipSpace flags (c ++ a) with
  | nil =>
      simp only [hskip] at h
      cases h
  | cons d t =>
      simp only [hskip] at h
      obtain ⟨r, rfl⟩ := exists_append_of_suffix (hskip ▸ hbehind).suffix_tail
      have hskip : skipSpace flags (c ++ a) = (d :: r) ++ a := hskip
      have hskip' := skipSpace_closing ha hb (by simp) hskip
      have hlength := (hskip' ▸ skipSpace_suffix flags (c ++ b)).length_le
      rw [List.cons_append, List.length_cons] at hlength
      rw [readSetRest, hskip', List.cons_append]
      simp only
      rw [readOperation_append ha] at h
      rw [readOperation_append hb]
      split at h
      · rename_i hclose
        obtain ⟨rfl, hr⟩ := Prod.mk.inj (Option.some.inj h)
        rw [if_pos hclose, List.append_cancel_right hr]
      · rename_i hclose
        rw [if_neg hclose]
        cases hoperation : readOperation (d :: r) with
        | some found =>
            obtain ⟨operation, u⟩ := found
            have hu := (readOperation_behind hoperation).length
            simp only [hoperation, Option.map_some] at h ⊢
            refine hitems ha hb ?_ h
            rw [List.length_cons] at hu
            rw [List.length_append] at hlength ⊢
            omega
        | none =>
            simp only [hoperation, Option.map_none] at h ⊢
            split at h
            · rename_i part u hpart
              have hm : 2 * (r ++ b).length + 2 ≤ m := by omega
              obtain ⟨t, hpart', hrest'⟩ := part_closes hset hitems ha hb hm hpart h
              rw [hpart']
              exact hrest'
            · cases h

theorem setCloses_and_itemsClose (n : Nat) : SetCloses n ∧ ItemsClose n := by
  induction n with
  | zero =>
      refine ⟨?_, ?_⟩
      · intro flags a b c c' set m _ _ _ h
        cases h
      · intro flags pending acc a b c c' set m _ _ _ h
        cases h
  | succ n ih => exact ⟨setCloses_succ ih.2, itemsClose_succ ih.1 ih.2⟩

/-- What is read of a set does not hang on a closing text behind it. -/
theorem readSet_closing {n m : Nat} {flags : Flags} {a b c c' : List Char} {set : CharSet}
    (ha : Closing a) (hb : Closing b) (hm : 2 * (c ++ b).length + 2 ≤ m)
    (h : readSet n flags (c ++ a) = some (set, c' ++ a)) :
    readSet m flags (c ++ b) = some (set, c' ++ b) :=
  (setCloses_and_itemsClose n).1 ha hb hm h

end LayeredConfig.Pattern.Syntax
