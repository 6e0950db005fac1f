import LayeredConfig.Proofs.Pattern.Sets

/-!
How groups are read. A group ends before a closing parenthesis or where the text ends, and what is
read of it does not hang on the closing text behind it, unless a comment is open there.
-/

namespace LayeredConfig.Pattern.Syntax

theorem span_closing {p : Char → Bool} {a b c c' : List Char} (hne : c' ≠ [])
    (h : (c ++ a).dropWhile p = c' ++ a) :
    (c ++ b).dropWhile p = c' ++ b ∧ (c ++ b).takeWhile p = (c ++ a).takeWhile p := by
  cases c' with
  | nil => exact absurd rfl hne
  | cons d c' => exact span_append h

theorem exists_cons_of_suffix {a c' s : List Char} (hne : c' ≠ []) (h : c' ++ a <:+ s) :
    ∃ d ds, s = (d :: ds) ++ a := by
  obtain ⟨t, rfl⟩ := h
  rw [← List.append_assoc]
  cases hfront : t ++ c' with
  | nil => exact absurd (List.append_eq_nil_iff.1 hfront).2 hne
  | cons d ds => exact ⟨d, ds, rfl⟩

theorem spanSpaced_suffix_skipBlanks (kind : Char → Bool) (comment : Bool) (s : List Char) :
    (spanSpaced true kind comment s).2 <:+ skipBlanks comment s := by
  induction s generalizing comment with
  | nil => exact List.suffix_rfl
  | cons c s ih =>
      simp only [spanSpaced, skipBlanks, Bool.true_and, decide_eq_true_eq]
      split
      · exact ih _
      · split
        · exact ih _
        · split
          · exact ih _
          · split
            · exact (spanSpaced_suffix true kind false s).trans (List.suffix_cons c s)
            · exact List.suffix_rfl

theorem skipBlanks_dropWhile (s : List Char) :
    skipBlanks false (s.dropWhile Text.isWhite) = skipBlanks false s := by
  induction s with
  | nil => rfl
  | cons c s ih =>
      cases hwhite : Text.isWhite c with
      | false => rw [List.dropWhile_cons_of_neg (by simp [hwhite])]
      | true =>
          have hmark : c ≠ '#' := by
            rintro rfl
            exact absurd hwhite (by decide)
          rw [List.dropWhile_cons_of_pos hwhite, ih]
          simp [skipBlanks, hmark, hwhite]

theorem readCount_suffix (flags : Flags) (s : List Char) :
    (readCount flags s).2 <:+ skipSpace flags s := by
  refine (List.dropWhile_suffix _).trans ?_
  cases hflags : flags.extended with
  | false =>
      rw [skipSpace, hflags]
      exact (spanSpaced_suffix ..).trans (List.dropWhile_suffix _)
  | true =>
      rw [skipSpace, hflags, if_pos rfl, ← skipBlanks_dropWhile]
      exact spanSpaced_suffix_skipBlanks ..

theorem readCount_closing {flags : Flags} {a b c c' : List Char} {count : Option Nat}
    (hne : c' ≠ []) (h : readCount flags (c ++ a) = (count, c' ++ a)) :
    readCount flags (c ++ b) = (count, c' ++ b) := by
  obtain ⟨hcount, hrest⟩ := Prod.mk.inj h
  cases hspan : spanSpaced flags.extended Char.isDigit false
      ((c ++ a).dropWhile Text.isWhite) with
  | mk digits rest =>
      have hdigits := spanSpaced_suffix flags.extended Char.isDigit false
        ((c ++ a).dropWhile Text.isWhite)
      rw [hspan] at hcount hrest hdigits
      obtain ⟨d, ds, rfl⟩ := exists_cons_of_suffix hne (hrest ▸ List.dropWhile_suffix _)
      obtain ⟨e, es, hblank⟩ := exists_cons_of_suffix (List.cons_ne_nil d ds) hdigits
      have hblank' := (span_closing (b := b) (List.cons_ne_nil e es) hblank).1
      rw [hblank] at hspan
      rw [readCount, hblank', spanSpaced_closing (List.cons_ne_nil d ds) hspan]
      exact Prod.ext hcount (span_closing hne hrest).1

theorem readUpper_of_brace {flags : Flags} {s rest : List Char}
    (h : skipSpace flags s = '\x7d' :: rest) (low : Nat) :
    readUpper flags low s = some ((low, none), rest) := by
  simp only [readUpper, h]

theorem readUpper_of_bare {flags : Flags} {s : List Char}
    (h : ∀ rest, skipSpace flags s ≠ '\x7d' :: rest) (low : Nat) :
    readUpper flags low s = match readCount flags s with
      | (some high, '\x7d' :: rest) => if low ≤ high then some ((low, some high), rest) else none
      | _ => none := by
  unfold readUpper
  split
  · exact absurd ‹_› (h _)
  · rfl

theorem readUpper_suffix {flags : Flags} {low : Nat} {s rest : List Char}
    {bounds : Nat × Option Nat} (h : readUpper flags low s = some (bounds, rest)) : rest <:+ s := by
  refine List.IsSuffix.trans ?_ (skipSpace_suffix flags s)
  have hcount := readCount_suffix flags s
  unfold readUpper at h
  split at h
  · rename_i hskip
    cases h
    rw [hskip]
    exact List.suffix_cons ..
  · split at h
    · rename_i heq
      rw [heq] at hcount
      split at h
      · cases h
        exact (List.suffix_cons ..).trans hcount
      · cases h
    · cases h

theorem readUpper_closing {flags : Flags} {low : Nat} {a b c c' : List Char}
    {bounds : Nat × Option Nat} (ha : Closing a) (hb : Closing b)
    (h : readUpper flags low (c ++ a) = some (bounds, c' ++ a)) :
    readUpper flags low (c ++ b) = some (bounds, c' ++ b) := by
  by_cases hbrace : ∃ t, skipSpace flags (c ++ a) = '\x7d' :: t
  · obtain ⟨t, hskip⟩ := hbrace
    rw [readUpper_of_brace hskip] at h
    obtain ⟨rfl, rfl⟩ := Prod.mk.inj (Option.some.inj h)
    have hskip : skipSpace flags (c ++ a) = ('\x7d' :: c') ++ a := hskip
    exact readUpper_of_brace (skipSpace_closing ha hb (by simp) hskip) low
  · rw [readUpper_of_bare fun t ht => hbrace ⟨t, ht⟩] at h
    split at h
    · rename_i high rest hcount
      split at h
      · rename_i hle
        obtain ⟨rfl, rfl⟩ := Prod.mk.inj (Option.some.inj h)
        have hcount : readCount flags (c ++ a) = (some high, ('\x7d' :: c') ++ a) := hcount
        have hsuffix := hcount ▸ readCount_suffix flags (c ++ a)
        obtain ⟨d, ds, hskip⟩ := exists_cons_of_suffix (by simp) hsuffix
        rw [readUpper_of_bare, readCount_closing (by simp) hcount]
        · exact if_pos hle
        · intro t ht
          rw [skipSpace_closing ha hb (by simp) hskip] at ht
          obtain ⟨rfl, -⟩ := List.cons.inj ht
          exact hbrace ⟨_, hskip⟩
      · cases h
    · cases h

theorem readBounds_suffix {flags : Flags} {s rest : List Char} {bounds : Nat × Option Nat}
    (h : readBounds flags s = some (bounds, rest)) : rest <:+ s := by
  refine List.IsSuffix.trans ?_ (skipSpace_suffix flags s)
  have hsuffix := readCount_suffix flags s
  rw [readBounds] at h
  split at h
  · rename_i hcount
    rw [hcount] at hsuffix
    cases h
    exact (List.suffix_cons ..).trans hsuffix
  · rename_i hcount
    rw [hcount] at hsuffix
    exact ((readUpper_suffix h).trans (List.suffix_cons ..)).trans hsuffix
  · cases h

theorem readBounds_closing {flags : Flags} {a b c c' : List Char} {bounds : Nat × Option Nat}
    (ha : Closing a) (hb : Closing b) (h : readBounds flags (c ++ a) = some (bounds, c' ++ a)) :
    readBounds flags (c ++ b) = some (bounds, c' ++ b) := by
  rw [readBounds] at h ⊢
  split at h
  · rename_i low rest hcount
    obtain ⟨rfl, rfl⟩ := Prod.mk.inj (Option.some.inj h)
    have hcount : readCount flags (c ++ a) = (some low, ('\x7d' :: c') ++ a) := hcount
    rw [readCount_closing (by simp) hcount]
    rfl
  · rename_i low rest hcount
    obtain ⟨r, rfl⟩ := exists_append_of_suffix (readUpper_suffix h)
    have hcount : readCount flags (c ++ a) = (some low, (',' :: r) ++ a) := hcount
    rw [readCount_closing (by simp) hcount]
    exact readUpper_closing ha hb h
  · cases h

theorem skipPreference_suffix (s : List Char) : skipPreference s <:+ s := by
  unfold skipPreference
  split
  · exact List.suffix_cons ..
  · exact List.suffix_rfl

theorem skipPreference_append {a : List Char} (ha : Closing a) (s : List Char) :
    skipPreference (s ++ a) = skipPreference s ++ a := by
  cases s with
  | nil =>
      rcases ha.cases with rfl | ⟨rest, rfl⟩
      · rfl
      · rfl
  | cons d s =>
      unfold skipPreference
      split <;> simp_all

theorem readRepetition_reading (flags : Flags) (last : Item) (r : Regex) :
    Reading (readRepetition flags last r) where
  behind := by
    intro s x rest h
    cases s with
    | nil => cases h
    | cons c s =>
        rw [readRepetition] at h
        split at h
        · cases h
          exact .of_cons List.suffix_rfl
        · split at h
          · cases h
            exact .of_cons (skipPreference_suffix s)
          · split at h
            · obtain ⟨_, hread, ⟨⟩⟩ := Option.map_eq_some_iff.1 h
              exact .of_cons (readBounds_suffix hread)
            · cases h
  cons := by
    intro d ds c' a b x ha hb h
    rw [readRepetition] at h ⊢
    split at h
    · rename_i hpreference
      obtain ⟨rfl, hds⟩ := Prod.mk.inj (Option.some.inj h)
      rw [if_pos hpreference, List.append_cancel_right hds]
    · rename_i hpreference
      rw [if_neg hpreference]
      split at h
      · obtain ⟨rfl, hds⟩ := Prod.mk.inj (Option.some.inj h)
        rw [skipPreference_append ha] at hds
        rw [skipPreference_append hb, List.append_cancel_right hds]
      · split at h
        · rename_i hbrace
          obtain ⟨⟨bounds, t⟩, hread, heq⟩ := Option.map_eq_some_iff.1 h
          obtain ⟨rfl, rfl⟩ := Prod.mk.inj heq
          rw [if_pos hbrace, readBounds_closing ha hb hread]
          rfl
        · cases h

theorem readFlags_suffix {flags flags' : Flags} {on : Bool} {seen s rest : List Char}
    (h : readFlags flags on seen s = some (flags', rest)) : rest <:+ s := by
  induction s generalizing flags on seen with
  | nil => cases h
  | cons c s ih =>
      rw [readFlags] at h
      split at h
      · split at h
        · cases h
        · cases h
          exact List.suffix_rfl
      · split at h
        · cases h
        · split at h
          · exact (ih h).trans (List.suffix_cons c s)
          · obtain ⟨_, -, h⟩ := Option.bind_eq_some_iff.1 h
            exact (ih h).trans (List.suffix_cons c s)

theorem readFlags_closing {flags flags' : Flags} {on : Bool} {seen a b c c' : List Char}
    (hne : c' ≠ [])
    (h : readFlags flags on seen (c ++ a) = some (flags', c' ++ a)) :
    readFlags flags on seen (c ++ b) = some (flags', c' ++ b) := by
  induction c generalizing flags on seen with
  | nil =>
      have hlength := (readFlags_suffix h).length_le
      have hpos := List.length_pos_iff.2 hne
      rw [List.length_append, List.nil_append] at hlength
      omega
  | cons d c ih =>
      rw [List.cons_append, readFlags] at h ⊢
      split at h
      · rename_i hend
        rw [if_pos hend]
        split at h
        · cases h
        · rename_i hvalid
          obtain ⟨rfl, hc⟩ := Prod.mk.inj (Option.some.inj h)
          rw [if_neg hvalid, ← List.append_cancel_right ((List.cons_append ..).trans hc)]
          rfl
      · rename_i hend
        rw [if_neg hend]
        split at h
        · cases h
        · rename_i hnew
          rw [if_neg hnew]
          split at h
          · rename_i hminus
            rw [if_pos hminus]
            exact ih h
          · rename_i hminus
            obtain ⟨inner, hflag, h⟩ := Option.bind_eq_some_iff.1 h
            rw [if_neg hminus, hflag]
            exact ih h

theorem readName_reading : Reading readName where
  behind := by
    intro s x rest h
    rw [readName] at h
    split at h
    · rename_i c cs d t htake hdrop
      split at h
      · cases h
        exact .of_suffix (hdrop ▸ List.dropWhile_suffix _) (.of_cons List.suffix_rfl)
      · cases h
    · cases h
  cons := by
    intro d ds c' a b x ha hb h
    rw [readName] at h ⊢
    split at h
    · rename_i c cs e t htake hdrop
      split at h
      · rename_i hname
        obtain ⟨rfl, rfl⟩ := Prod.mk.inj (Option.some.inj h)
        obtain ⟨hdrop', htake'⟩ := span_append (c := d :: ds) (b := b) hdrop
        rw [List.cons_append, List.cons_append, htake] at htake'
        rw [List.cons_append] at hdrop'
        rw [hdrop', htake']
        exact if_pos hname
      · cases h
    · cases h

theorem isPrefixOf_append {a mark : List Char} (ha : Closing a) (hmark : ')' ∉ mark)
    (s : List Char) : mark.isPrefixOf (s ++ a) = mark.isPrefixOf s := by
  rw [Bool.eq_iff_iff, List.isPrefixOf_iff_prefix, List.isPrefixOf_iff_prefix]
  constructor
  · rintro ⟨u, heq⟩
    obtain ⟨v, rfl, -⟩ := exists_of_append_closing ha hmark heq.symm
    exact List.prefix_append mark v
  · exact fun h => h.trans (List.prefix_append s a)

theorem isLookAround_append {a : List Char} (ha : Closing a) (s : List Char) :
    isLookAround (s ++ a) = isLookAround s := by
  have hmark : ∀ mark : List Char, ')' ∉ mark → mark.isPrefixOf (s ++ a) = mark.isPrefixOf s :=
    fun _ h => isPrefixOf_append ha h s
  simp only [isLookAround, List.any_cons, List.any_nil]
  rw [hmark, hmark, hmark, hmark] <;> decide

theorem afterNameMark?_append {a : List Char} (ha : Closing a) (s : List Char) :
    afterNameMark? (s ++ a) = (afterNameMark? s).map (· ++ a) := by
  rw [afterNameMark?, afterNameMark?, isPrefixOf_append ha (by decide),
    isPrefixOf_append ha (by decide)]
  split
  · obtain ⟨v, rfl⟩ := List.isPrefixOf_iff_prefix.1 ‹_›
    rfl
  · split
    · obtain ⟨v, rfl⟩ := List.isPrefixOf_iff_prefix.1 ‹_›
      rfl
    · rfl

theorem afterNameMark?_suffix {s rest : List Char} (h : afterNameMark? s = some rest) :
    rest <:+ s := by
  rw [afterNameMark?] at h
  split at h
  · cases h
    exact List.drop_suffix 2 s
  · split at h
    · cases h
      exact List.drop_suffix 1 s
    · cases h

theorem readHead_of_ne {s : List Char} (h : ∀ t, s ≠ '?' :: t) (flags : Flags) :
    readHead flags s = some (.group flags none, s) := by
  unfold readHead
  split
  · exact absurd rfl (h _)
  · rfl

theorem readHead_suffix {flags : Flags} {s rest : List Char} {head : GroupHead}
    (h : readHead flags s = some (head, rest)) : rest <:+ s := by
  unfold readHead at h
  split at h
  · rename_i t
    refine List.IsSuffix.trans ?_ (List.suffix_cons '?' t)
    split at h
    · cases h
    · split at h
      · rename_i u hmark
        obtain ⟨_, hname, ⟨⟩⟩ := Option.map_eq_some_iff.1 h
        exact (readName_reading.behind hname).suffix.trans (afterNameMark?_suffix hmark)
      · split at h
        · rename_i hflags
          cases h
          exact (List.suffix_cons ..).trans (readFlags_suffix hflags)
        · rename_i hflags
          cases h
          exact (List.suffix_cons ..).trans (readFlags_suffix hflags)
        · cases h
  · cases h
    exact List.suffix_rfl

theorem readHead_closing {flags : Flags} {a b c c' : List Char} {head : GroupHead}
    (ha : Closing a) (hb : Closing b) (h : readHead flags (c ++ a) = some (head, c' ++ a)) :
    readHead flags (c ++ b) = some (head, c' ++ b) := by
  by_cases hmark : ∃ t, c = '?' :: t
  · obtain ⟨s, rfl⟩ := hmark
    simp only [List.cons_append, readHead, isLookAround_append ha,
      isLookAround_append hb, afterNameMark?_append ha, afterNameMark?_append hb] at h ⊢
    split at h
    · cases h
    · rename_i hlook
      rw [if_neg hlook]
      cases hname : afterNameMark? s with
      | some u =>
          simp only [hname, Option.map_some] at h ⊢
          obtain ⟨⟨name, rest⟩, hread, heq⟩ := Option.map_eq_some_iff.1 h
          obtain ⟨rfl, rfl⟩ := Prod.mk.inj heq
          rw [readName_reading.closing ha hb hread]
          rfl
      | none =>
          simp only [hname, Option.map_none] at h ⊢
          split at h
          · rename_i inner rest hflags
            obtain ⟨rfl, rfl⟩ := Prod.mk.inj (Option.some.inj h)
            have hflags : readFlags flags true [] (s ++ a) =
              some (inner, (':' :: c') ++ a) := hflags
            rw [readFlags_closing (by simp) hflags]
            rfl
          · rename_i inner d rest hother hflags
            obtain ⟨rfl, rfl⟩ := Prod.mk.inj (Option.some.inj h)
            have hflags : readFlags flags true [] (s ++ a) = some (inner, (d :: c') ++ a) := hflags
            rw [readFlags_closing (by simp) hflags]
            simp
          · cases h
  · have hother : ∀ t, c ≠ '?' :: t := fun t ht => hmark ⟨t, ht⟩
    rw [readHead_of_ne (append_ne_cons ha (by decide) hother)] at h
    obtain ⟨rfl, hc⟩ := Prod.mk.inj (Option.some.inj h)
    rw [readHead_of_ne (append_ne_cons hb (by decide) hother), List.append_cancel_right hc]

theorem readHead_skipSpace_closing {flags : Flags} {a b c u : List Char} {head : GroupHead}
    (ha : Closing a) (hb : Closing b) (hne : u = [] → ∃ inner, head = .directive inner)
    (h : readHead flags (skipSpace flags (c ++ a)) = some (head, u ++ a)) :
    readHead flags (skipSpace flags (c ++ b)) = some (head, u ++ b) := by
  have hbare : readHead flags a = some (.group flags none, a) :=
    readHead_of_ne (append_ne_cons (c := []) ha (by decide) nofun) flags
  rcases skipSpace_cases flags c with ⟨d, ds, hskip⟩ | hskip | hskip
  · rw [hskip] at h ⊢
    exact readHead_closing (c := d :: ds) ha hb h
  · rw [hskip a ha, hbare] at h
    obtain ⟨rfl, hc⟩ := Prod.mk.inj (Option.some.inj h)
    obtain ⟨_, hhead⟩ := hne (List.append_cancel_right (hc.symm.trans (List.nil_append a).symm))
    cases hhead
  · rw [hskip] at h
    have hrest := (readHead_suffix h).eq_of_length_le ?_
    · by_cases hend : u ++ a = []
      · obtain ⟨rfl, rfl⟩ := List.append_eq_nil_iff.1 hend
        obtain ⟨rfl, -⟩ := Prod.mk.inj (Option.some.inj h)
        obtain ⟨_, hhead⟩ := hne rfl
        cases hhead
      · exact absurd hrest.symm (skipBlanks_comment_ne hend)
    · have hlength := (skipBlanks_suffix true a).length_le
      rw [List.length_append]
      omega

theorem readAtom_reading (flags : Flags) : Reading (readAtom flags) where
  behind := by
    intro s x rest h
    cases s with
    | nil => cases h
    | cons c s =>
        rw [readAtom] at h
        split at h
        · obtain ⟨⟨e, t⟩, hread, ⟨⟩⟩ := Option.map_eq_some_iff.1 h
          exact .of_cons ((readEscape_reading flags).behind hread).suffix
        · obtain ⟨_, -, ⟨⟩⟩ := Option.map_eq_some_iff.1 h
          exact .of_cons List.suffix_rfl
  cons := by
    intro d ds c' a b x ha hb h
    rw [readAtom] at h ⊢
    split at h
    · rename_i hescape
      obtain ⟨⟨e, t⟩, hread, heq⟩ := Option.map_eq_some_iff.1 h
      obtain ⟨rfl, rfl⟩ := Prod.mk.inj heq
      rw [if_pos hescape, (readEscape_reading flags).closing ha hb hread]
      rfl
    · rename_i hescape
      obtain ⟨r, hatom, heq⟩ := Option.map_eq_some_iff.1 h
      obtain ⟨rfl, hds⟩ := Prod.mk.inj heq
      rw [if_neg hescape, hatom, List.append_cancel_right hds]
      rfl

theorem readStep_suffix {nested : Progress → List Char → Option (Progress × List Char)}
    (hnested : ∀ {g g' s rest}, nested g s = some (g', rest) → rest <:+ s) {g g' : Progress}
    {c : Char} {s rest : List Char} (h : readStep nested g c s = some (g', rest)) :
    rest <:+ s := by
  rw [readStep] at h
  split at h
  · cases h
    exact List.suffix_rfl
  · split at h
    · split at h
      · cases h
      · cases h
        exact (readHead_suffix ‹_›).trans (skipSpace_suffix g.flags s)
      · rename_i flags name t hhead
        split at h
        · cases h
        · split at h
          · rename_i inner u hinner
            cases h
            exact (((List.suffix_cons ')' rest).trans (hnested hinner)).trans
              (readHead_suffix hhead)).trans (skipSpace_suffix g.flags s)
          · cases h
    · split at h
      · obtain ⟨⟨set, t⟩, hset, ⟨⟩⟩ := Option.map_eq_some_iff.1 h
        exact readSet_suffix hset
      · split at h
        · split at h
          · cases h
          · rename_i last parts hparts
            obtain ⟨r, -, h⟩ := Option.bind_eq_some_iff.1 h
            obtain ⟨_, hread, ⟨⟩⟩ := Option.map_eq_some_iff.1 h
            exact ((readRepetition_reading g.flags last r).behind hread).suffix_tail
        · obtain ⟨⟨r, t⟩, hatom, ⟨⟩⟩ := Option.map_eq_some_iff.1 h
          exact ((readAtom_reading g.flags).behind hatom).suffix_tail

theorem readGroup_suffix {n : Nat} {g g' : Progress} {s rest : List Char}
    (h : readGroup n g s = some (g', rest)) : rest <:+ s := by
  induction n generalizing g g' s rest with
  | zero => cases h
  | succ n ih =>
      have hsuffix := skipSpace_suffix g.flags s
      rw [readGroup] at h
      split at h
      · cases h
        exact List.nil_suffix
      · rename_i c t hskip
        rw [hskip] at hsuffix
        split at h
        · cases h
          exact hsuffix
        · split at h
          · rename_i hstep
            exact (((ih h).trans (readStep_suffix ih hstep)).trans (List.suffix_cons c t)).trans
              hsuffix
          · cases h

/-- With so many steps, what is read of a group does not hang on a closing text behind it, unless
the group ends in a comment: then it ends where the text ends, on the same line. -/
def GroupCloses (n : Nat) : Prop :=
  ∀ {g g' : Progress} {a c c' : List Char}, Closing a →
    readGroup n g (c ++ a) = some (g', c' ++ a) →
    (∀ {b m}, Closing b → (c ++ b).length < m → readGroup m g (c ++ b) = some (g', c' ++ b)) ∨
      c' ++ a = [] ∧
        ∀ {b m}, Closing b → '\n' ∉ b → (c ++ b).length < m → readGroup m g (c ++ b) = some (g', [])

/-- A group within the group, or flags that are set in it. -/
theorem readStep_opening_closing {n m : Nat} {g g' : Progress} {a b c c' : List Char}
    (hgroup : GroupCloses n) (ha : Closing a) (hb : Closing b) (hm : (c ++ b).length < m)
    (h : readStep (readGroup n) g '(' (c ++ a) = some (g', c' ++ a)) :
    readStep (readGroup m) g '(' (c ++ b) = some (g', c' ++ b) := by
  have hbar : ¬ '(' = '|' := by decide
  rw [readStep, if_neg hbar, if_pos rfl] at h ⊢
  split at h
  · cases h
  · rename_i flags t hhead
    obtain ⟨rfl, rfl⟩ := Prod.mk.inj (Option.some.inj h)
    rw [readHead_skipSpace_closing ha hb (fun _ => ⟨flags, rfl⟩) hhead]
  · rename_i flags name t hhead
    split at h
    · cases h
    · rename_i hnew
      split at h
      · rename_i inner u hinner
        obtain ⟨rfl, rfl⟩ := Prod.mk.inj (Option.some.inj h)
        have hinner : readGroup n (.start flags (name.toList ++ g.names)) t =
          some (inner, (')' :: c') ++ a) := hinner
        obtain ⟨e, t, rfl⟩ := exists_cons_of_suffix (by simp) (readGroup_suffix hinner)
        have hhead' := readHead_skipSpace_closing (u := e :: t) ha hb nofun hhead
        have hlength :=
          ((readHead_suffix hhead').trans (skipSpace_suffix g.flags (c ++ b))).length_le
        rcases hgroup ha hinner with hinner' | ⟨hend, -⟩
        · rw [hhead']
          simp only [hnew, hinner' hb (Nat.lt_of_le_of_lt hlength hm)]
          rfl
        · cases hend
      · cases h

theorem readStep_closing {n m : Nat} {g g' : Progress} {a b c c' : List Char} {d : Char}
    (hgroup : GroupCloses n) (ha : Closing a) (hb : Closing b) (hm : (c ++ b).length < m)
    (h : readStep (readGroup n) g d (c ++ a) = some (g', c' ++ a)) :
    readStep (readGroup m) g d (c ++ b) = some (g', c' ++ b) := by
  by_cases hopening : d = '('
  · rw [hopening] at h ⊢
    exact readStep_opening_closing hgroup ha hb hm h
  · rw [readStep, if_neg hopening] at h ⊢
    split at h
    · rename_i hbar
      obtain ⟨rfl, hc⟩ := Prod.mk.inj (Option.some.inj h)
      rw [if_pos hbar, List.append_cancel_right hc]
    · rename_i hbar
      rw [if_neg hbar]
      split at h
      · rename_i hbracket
        obtain ⟨⟨set, t⟩, hset, heq⟩ := Option.map_eq_some_iff.1 h
        obtain ⟨rfl, rfl⟩ := Prod.mk.inj heq
        rw [if_pos hbracket, readSet_closing ha hb le_rfl hset]
        rfl
      · rename_i hbracket
        rw [if_neg hbracket]
        split at h
        · rename_i hrepetition
          rw [if_pos hrepetition]
          split at h
          · cases h
          · rename_i last parts hparts
            obtain ⟨r, hlast, h⟩ := Option.bind_eq_some_iff.1 h
            obtain ⟨⟨item, t⟩, hread, heq⟩ := Option.map_eq_some_iff.1 h
            obtain ⟨rfl, rfl⟩ := Prod.mk.inj heq
            simp only [hlast, Option.bind_some,
              (readRepetition_reading g.flags last r).cons ha hb hread, Option.map_some]
        · rename_i hrepetition
          obtain ⟨⟨r, t⟩, hatom, heq⟩ := Option.map_eq_some_iff.1 h
          obtain ⟨rfl, rfl⟩ := Prod.mk.inj heq
          rw [if_neg hrepetition, (readAtom_reading g.flags).cons ha hb hatom]
          rfl

theorem readGroup_of_closing {n : Nat} {g : Progress} {s t : List Char} (ht : Closing t)
    (hskip : skipSpace g.flags s = t) : readGroup (n + 1) g s = some (g, t) := by
  rw [readGroup, hskip]
  rcases ht.cases with rfl | ⟨rest, rfl⟩
  · rfl
  · exact if_pos rfl

theorem readGroup_of_step {n : Nat} {g g' : Progress} {s t u : List Char} {d : Char}
    (hskip : skipSpace g.flags s = d :: t) (hd : d ≠ ')')
    (hstep : readStep (readGroup n) g d t = some (g', u)) :
    readGroup (n + 1) g s = readGroup n g' u := by
  rw [readGroup, hskip]
  simp only [if_neg hd, hstep]

theorem readGroup_of_step_closing {n m : Nat} {g g' : Progress} {a b c t u : List Char} {d : Char}
    (hgroup : GroupCloses n) (ha : Closing a) (hb : Closing b) (hm : (c ++ b).length < m + 1)
    (hskip : skipSpace g.flags (c ++ a) = (d :: t) ++ a) (hd : d ≠ ')')
    (hstep : readStep (readGroup n) g d (t ++ a) = some (g', u ++ a)) :
    readGroup (m + 1) g (c ++ b) = readGroup m g' (u ++ b) ∧ (u ++ b).length < m := by
  have hskip' := skipSpace_closing ha hb (by simp) hskip
  have ht := (hskip' ▸ skipSpace_suffix g.flags (c ++ b)).length_le
  rw [List.cons_append, List.length_cons] at ht
  have hstep' := readStep_closing (m := m) hgroup ha hb (by omega) hstep
  have hu := (readStep_suffix readGroup_suffix hstep').length_le
  exact ⟨readGroup_of_step hskip' hd hstep', by omega⟩

theorem groupCloses_succ {n : Nat} (hgroup : GroupCloses n) : GroupCloses (n + 1) := by
  intro g g' a c c' ha h
  rw [readGroup] at h
  cases hskip : skipSpace g.flags (c ++ a) with
  | nil =>
      simp only [hskip] at h
      obtain ⟨rfl, hend⟩ := Prod.mk.inj (Option.some.inj h)
      obtain ⟨rfl, rfl⟩ := List.append_eq_nil_iff.1 hend.symm
      -- The group ends with the text, behind white space or amid a comment.
      rcases skipSpace_cases g.flags c with ⟨d, ds, hrest⟩ | hrest | hrest
      · rw [hrest] at hskip
        cases hskip
      · refine .inl ?_
        intro b m hb hm
        obtain ⟨m, rfl⟩ : ∃ k, m = k + 1 := ⟨m - 1, by omega⟩
        exact readGroup_of_closing hb (hrest b hb)
      · refine .inr ⟨rfl, ?_⟩
        intro b m _ hline hm
        obtain ⟨m, rfl⟩ : ∃ k, m = k + 1 := ⟨m - 1, by omega⟩
        exact readGroup_of_closing closing_nil ((hrest b).trans (skipBlanks_comment hline))
  | cons d t =>
      simp only [hskip] at h
      split at h
      · rename_i hd
        obtain ⟨rfl, hend⟩ := Prod.mk.inj (Option.some.inj h)
        have hclosing : ∀ {b}, Closing b → Closing (c' ++ b) := by
          intro b hb
          cases c' with
          | nil => exact hb
          | cons e c' =>
              rw [← (List.cons.inj hend).1, hd]
              exact closing_cons _
        rw [hend] at hskip
        refine .inl ?_
        intro b m hb hm
        obtain ⟨m, rfl⟩ : ∃ k, m = k + 1 := ⟨m - 1, by omega⟩
        exact readGroup_of_closing (hclosing hb)
          (skipSpace_closing ha hb (hend ▸ List.cons_ne_nil d t) hskip)
      · rename_i hd
        split at h
        · rename_i g₁ u hstep
          obtain ⟨u, rfl⟩ := exists_append_of_suffix (readGroup_suffix h)
          obtain ⟨t, rfl⟩ := exists_append_of_suffix (readStep_suffix readGroup_suffix hstep)
          rcases hgroup ha h with hrest | ⟨hend, hrest⟩
          · refine .inl ?_
            intro b m hb hm
            obtain ⟨m, rfl⟩ : ∃ k, m = k + 1 := ⟨m - 1, by omega⟩
            obtain ⟨heq, hm⟩ := readGroup_of_step_closing hgroup ha hb hm hskip hd hstep
            rw [heq]
            exact hrest hb hm
          · refine .inr ⟨hend, ?_⟩
            intro b m hb hline hm
            obtain ⟨m, rfl⟩ : ∃ k, m = k + 1 := ⟨m - 1, by omega⟩
            obtain ⟨heq, hm⟩ := readGroup_of_step_closing hgroup ha hb hm hskip hd hstep
            rw [heq]
            exact hrest hb hline hm
        · cases h

theorem groupCloses (n : Nat) : GroupCloses n := by
  induction n with
  | zero =>
      intro g g' a c c' _ h
      cases h
  | succ n ih => exact groupCloses_succ ih

/-- What is read of a group does not hang on the closing text behind it, unless the group ends in a
comment. -/
theorem readGroup_closing {n : Nat} {g g' : Progress} {a s : List Char} (ha : Closing a)
    (h : readGroup n g (s ++ a) = some (g', a)) :
    (∀ {b m}, Closing b → (s ++ b).length < m → readGroup m g (s ++ b) = some (g', b)) ∨
      a = [] ∧
        ∀ {b m}, Closing b → '\n' ∉ b → (s ++ b).length < m →
          readGroup m g (s ++ b) = some (g', []) := by
  have h : readGroup n g (s ++ a) = some (g', [] ++ a) := h
  exact groupCloses n ha h

end LayeredConfig.Pattern.Syntax
