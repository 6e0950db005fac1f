import LayeredConfig.Pattern.Syntax

/-!
How regular expressions are read, piece by piece: what a reader leaves, and that its result does not
hang on the text behind what it has read, as long as this text is empty or starts with a closing
parenthesis. Such texts are the ends of expressions, and what stands behind a group.
-/

namespace LayeredConfig.Pattern.Syntax

variable {α β : Type}

def Closing (s : List Char) : Prop := ∀ c ∈ s.head?, c = ')'

theorem closing_nil : Closing [] := nofun

theorem closing_cons (s : List Char) : Closing (')' :: s) := by
  rintro _ ⟨⟩
  rfl

theorem Closing.cases {s : List Char} (h : Closing s) : s = [] ∨ ∃ rest, s = ')' :: rest := by
  cases s with
  | nil => exact .inl rfl
  | cons c rest => exact .inr ⟨rest, by rw [h c rfl]⟩

theorem exists_of_append_closing {a s t u : List Char} (ha : Closing a) (ht : ')' ∉ t)
    (h : s ++ a = t ++ u) : ∃ v, s = t ++ v ∧ u = v ++ a := by
  rcases List.append_eq_append_iff.1 h with ⟨v, rfl, rfl⟩ | ⟨v, rfl, rfl⟩
  · cases v with
    | nil => exact ⟨[], by simp⟩
    | cons d v =>
        obtain rfl := ha d rfl
        exact absurd (List.mem_append_right s (List.mem_cons_self ..)) ht
  · exact ⟨v, rfl, rfl⟩

theorem append_ne_cons {a c : List Char} {d : Char} (ha : Closing a) (hd : d ≠ ')')
    (hc : ∀ t, c ≠ d :: t) (t : List Char) : c ++ a ≠ d :: t := by
  intro heq
  have hmark : ')' ∉ [d] := fun hmem => hd (List.mem_singleton.1 hmem).symm
  obtain ⟨v, rfl, -⟩ := exists_of_append_closing ha hmark heq
  exact hc v rfl

/-- A text is a part of the end of another one, which is longer. -/
structure Behind (rest s : List Char) : Prop where
  suffix : rest <:+ s
  length : rest.length < s.length

namespace Behind

variable {s t u c c' a b : List Char} {d : Char}

theorem of_cons (h : t <:+ s) : Behind t (d :: s) :=
  ⟨h.trans (List.suffix_cons d s), Nat.lt_succ_of_le h.length_le⟩

theorem trans (h : Behind t s) (h' : u <:+ t) : Behind u s :=
  ⟨h'.trans h.suffix, Nat.lt_of_le_of_lt h'.length_le h.length⟩

theorem of_suffix (h : t <:+ s) (h' : Behind u t) : Behind u s :=
  ⟨h'.suffix.trans h, Nat.lt_of_lt_of_le h'.length h.length_le⟩

theorem suffix_tail (h : Behind t (d :: s)) : t <:+ s := by
  rcases List.suffix_cons_iff.1 h.suffix with rfl | hsuffix
  · exact absurd h.length (Nat.lt_irrefl _)
  · exact hsuffix

end Behind

theorem exists_append_of_suffix {a c' s : List Char} (h : c' ++ a <:+ s) : ∃ c, s = c ++ a := by
  obtain ⟨t, rfl⟩ := h
  exact ⟨t ++ c', (List.append_assoc t c' a).symm⟩

theorem Behind.exists_cons {a c c' : List Char} (h : Behind (c' ++ a) (c ++ a)) :
    ∃ d ds, c = d :: ds := by
  cases c with
  | nil =>
      have hlength := h.length
      rw [List.length_append, List.nil_append] at hlength
      omega
  | cons d ds => exact ⟨d, ds, rfl⟩

/-- A reader that takes something off the start of a text, and for which it makes no difference
which closing text stands behind what it reads. -/
structure Reading (read : List Char → Option (α × List Char)) : Prop where
  behind : ∀ {s x rest}, read s = some (x, rest) → Behind rest s
  cons : ∀ {d ds c' a b x}, Closing a → Closing b →
    read (d :: (ds ++ a)) = some (x, c' ++ a) → read (d :: (ds ++ b)) = some (x, c' ++ b)

theorem Reading.of_closing {read : List Char → Option (α × List Char)}
    (hbehind : ∀ {s x rest}, read s = some (x, rest) → Behind rest s)
    (hclosing : ∀ {c c' a b x}, Closing a → Closing b →
      read (c ++ a) = some (x, c' ++ a) → read (c ++ b) = some (x, c' ++ b)) : Reading read where
  behind := hbehind
  cons {d ds} _ _ _ _ ha hb h := hclosing (c := d :: ds) ha hb h

theorem Reading.closing {read : List Char → Option (α × List Char)} (hread : Reading read)
    {a b c c' : List Char} {x : α} (ha : Closing a) (hb : Closing b)
    (h : read (c ++ a) = some (x, c' ++ a)) : read (c ++ b) = some (x, c' ++ b) := by
  obtain ⟨d, ds, rfl⟩ := (hread.behind h).exists_cons
  exact hread.cons ha hb h

/-- Whether a comment is open behind a text of white space and comments. -/
def leavesOpen (comment : Bool) : List Char → Bool
  | [] => comment
  | c :: cs => leavesOpen (if comment then c ≠ '\n' else c = '#') cs

theorem skipBlanks_append (comment : Bool) (c a : List Char) :
    skipBlanks comment (c ++ a) =
      if skipBlanks comment c = [] then skipBlanks (leavesOpen comment c) a
      else skipBlanks comment c ++ a := by
  induction c generalizing comment with
  | nil => rfl
  | cons d c ih =>
      simp only [List.cons_append, skipBlanks, leavesOpen, ih]
      cases comment with
      | true => rfl
      | false =>
          by_cases hmark : d = '#'
          · simp [hmark]
          · by_cases hwhite : Text.isWhite d = true
            · simp [hmark, hwhite]
            · simp [hmark, hwhite]

theorem skipBlanks_closing {a : List Char} (h : Closing a) : skipBlanks false a = a := by
  rcases h.cases with rfl | ⟨rest, rfl⟩
  · rfl
  · rfl

theorem skipBlanks_suffix (comment : Bool) (s : List Char) : skipBlanks comment s <:+ s := by
  induction s generalizing comment with
  | nil => exact List.suffix_rfl
  | cons c s ih =>
      rw [skipBlanks]
      split
      · exact (ih _).trans (List.suffix_cons c s)
      · split
        · exact (ih _).trans (List.suffix_cons c s)
        · split
          · exact (ih _).trans (List.suffix_cons c s)
          · exact List.suffix_rfl

theorem skipBlanks_comment {s : List Char} (h : '\n' ∉ s) : skipBlanks true s = [] := by
  induction s with
  | nil => rfl
  | cons c s ih =>
      have hc : c ≠ '\n' := (List.ne_of_not_mem_cons h).symm
      simp [skipBlanks, hc, ih (List.not_mem_of_not_mem_cons h)]

theorem skipSpace_suffix (flags : Flags) (s : List Char) : skipSpace flags s <:+ s := by
  rw [skipSpace]
  split
  · exact skipBlanks_suffix false s
  · exact List.suffix_rfl

/-- Where the white space and the comments end that a text starts with: at a character of the text,
at its end, or beyond its end, if it leaves a comment open. -/
theorem skipSpace_cases (flags : Flags) (c : List Char) :
    (∃ d ds, ∀ a, skipSpace flags (c ++ a) = d :: (ds ++ a)) ∨
      (∀ a, Closing a → skipSpace flags (c ++ a) = a) ∨
      ∀ a, skipSpace flags (c ++ a) = skipBlanks true a := by
  cases hflags : flags.extended with
  | false =>
      cases c with
      | nil => exact .inr (.inl fun a _ => by simp [skipSpace, hflags])
      | cons d ds => exact .inl ⟨d, ds, fun a => by simp [skipSpace, hflags]⟩
  | true =>
      simp only [skipSpace, hflags, if_true, skipBlanks_append]
      cases hrest : skipBlanks false c with
      | cons d ds => exact .inl ⟨d, ds, fun a => by simp⟩
      | nil =>
          cases hopen : leavesOpen false c with
          | true => exact .inr (.inr fun a => by simp)
          | false => exact .inr (.inl fun a ha => by simpa using skipBlanks_closing ha)

theorem skipBlanks_comment_ne {a c' : List Char} (hne : c' ++ a ≠ []) :
    skipBlanks true a ≠ c' ++ a := by
  intro h
  cases a with
  | nil => exact hne h.symm
  | cons d a =>
      have hlength := (skipBlanks_suffix (d ≠ '\n') a).length_le
      rw [skipBlanks, if_pos rfl] at h
      rw [h, List.length_append, List.length_cons] at hlength
      omega

theorem skipSpace_closing {flags : Flags} {a b c c' : List Char} (ha : Closing a) (hb : Closing b)
    (hne : c' ++ a ≠ []) (h : skipSpace flags (c ++ a) = c' ++ a) :
    skipSpace flags (c ++ b) = c' ++ b := by
  rcases skipSpace_cases flags c with ⟨d, ds, hskip⟩ | hskip | hskip
  · rw [hskip] at h ⊢
    have hc' : d :: ds = c' := List.append_cancel_right ((List.cons_append ..).trans h)
    rw [← hc']
    rfl
  · rw [hskip a ha] at h
    have hc' : c' = [] := by
      have hlength := congrArg List.length h
      rw [List.length_append] at hlength
      exact List.eq_nil_of_length_eq_zero (by omega)
    rw [hskip b hb, hc', List.nil_append]
  · rw [hskip] at h
    exact absurd h (skipBlanks_comment_ne hne)

theorem span_append {p : Char → Bool} {a b c c' : List Char} {d : Char}
    (h : (c ++ a).dropWhile p = d :: (c' ++ a)) :
    (c ++ b).dropWhile p = d :: (c' ++ b) ∧ (c ++ b).takeWhile p = (c ++ a).takeWhile p := by
  have hne : c.dropWhile p ≠ [] := by
    intro hnil
    rw [List.dropWhile_append, hnil] at h
    have hlength := (List.dropWhile_suffix p (l := a)).length_le
    rw [List.isEmpty_nil, if_pos rfl] at h
    rw [h, List.length_cons, List.length_append] at hlength
    omega
  have hempty : (c.dropWhile p).isEmpty = false := List.isEmpty_eq_false_iff.2 hne
  rw [List.dropWhile_append, hempty, if_neg Bool.false_ne_true] at h
  have hdrop : c.dropWhile p = d :: c' :=
    List.append_cancel_right (h.trans (List.cons_append ..).symm)
  refine ⟨?_, ?_⟩
  · rw [List.dropWhile_append, hempty, if_neg Bool.false_ne_true, hdrop]
    rfl
  · have htake : ∀ e, (c ++ e).takeWhile p = c.takeWhile p := by
      intro e
      rw [List.takeWhile_append, if_neg]
      intro hall
      have hsplit := congrArg List.length (List.takeWhile_append_dropWhile (p := p) (l := c))
      rw [List.length_append, hall, hdrop, List.length_cons] at hsplit
      omega
    rw [htake, htake]

theorem spanSpaced_suffix (extended : Bool) (kind : Char → Bool) (comment : Bool) (s : List Char) :
    (spanSpaced extended kind comment s).2 <:+ s := by
  induction s generalizing comment with
  | nil => exact List.suffix_rfl
  | cons c s ih =>
      rw [spanSpaced]
      split
      · exact (ih _).trans (List.suffix_cons c s)
      · split
        · exact (ih _).trans (List.suffix_cons c s)
        · split
          · exact (ih _).trans (List.suffix_cons c s)
          · split
            · exact (ih _).trans (List.suffix_cons c s)
            · exact List.suffix_rfl

theorem spanSpaced_closing {extended comment : Bool} {kind : Char → Bool} {a b c c' t : List Char}
    (hne : c' ≠ []) (h : spanSpaced extended kind comment (c ++ a) = (t, c' ++ a)) :
    spanSpaced extended kind comment (c ++ b) = (t, c' ++ b) := by
  induction c generalizing comment t with
  | nil =>
      have hlength := (h ▸ spanSpaced_suffix extended kind comment ([] ++ a)).length_le
      have hpos := List.length_pos_iff.2 hne
      rw [List.length_append, List.nil_append] at hlength
      omega
  | cons d c ih =>
      rw [List.cons_append, spanSpaced] at h ⊢
      split at h
      · rename_i hcomment
        rw [if_pos hcomment]
        exact ih h
      · rename_i hcomment
        rw [if_neg hcomment]
        split at h
        · rename_i hmark
          rw [if_pos hmark]
          exact ih h
        · rename_i hmark
          rw [if_neg hmark]
          split at h
          · rename_i hwhite
            rw [if_pos hwhite]
            exact ih h
          · rename_i hwhite
            rw [if_neg hwhite]
            split at h
            · rename_i hkind
              obtain ⟨rfl, hrest⟩ := Prod.mk.inj h
              rw [if_pos hkind, ih (Prod.ext rfl hrest)]
            · rename_i hkind
              obtain ⟨rfl, hrest⟩ := Prod.mk.inj h
              rw [if_neg hkind, ← List.append_cancel_right ((List.cons_append ..).trans hrest)]
              rfl

theorem takeSpaced_suffix {flags : Flags} {n : Nat} {s t rest : List Char}
    (h : takeSpaced flags n s = some (t, rest)) : rest <:+ s := by
  induction n generalizing s t with
  | zero =>
      cases h
      exact List.suffix_rfl
  | succ n ih =>
      have hskip := skipSpace_suffix flags s
      rw [takeSpaced] at h
      split at h
      · cases h
      · rename_i c r heq
        rw [heq] at hskip
        obtain ⟨⟨_, _⟩, hread, ⟨⟩⟩ := Option.map_eq_some_iff.1 h
        exact ((ih hread).trans (List.suffix_cons c r)).trans hskip

theorem takeSpaced_succ {flags : Flags} {n : Nat} {s t rest : List Char}
    (h : takeSpaced flags (n + 1) s = some (t, rest)) :
    ∃ c r taken, skipSpace flags s = c :: r ∧ takeSpaced flags n r = some (taken, rest) ∧
      t = c :: taken := by
  rw [takeSpaced] at h
  split at h
  · cases h
  · rename_i c r hskip
    obtain ⟨⟨taken, _⟩, hread, ⟨⟩⟩ := Option.map_eq_some_iff.1 h
    exact ⟨c, r, taken, hskip, hread, rfl⟩

theorem takeSpaced_of_skip {flags : Flags} {n : Nat} {c : Char} {s r t rest : List Char}
    (hskip : skipSpace flags s = c :: r) (h : takeSpaced flags n r = some (t, rest)) :
    takeSpaced flags (n + 1) s = some (c :: t, rest) := by
  rw [takeSpaced, hskip]
  simp only [h, Option.map_some]

theorem takeSpaced_closing {flags : Flags} {n : Nat} {a b c c' t : List Char} (ha : Closing a)
    (hb : Closing b) (h : takeSpaced flags n (c ++ a) = some (t, c' ++ a)) :
    takeSpaced flags n (c ++ b) = some (t, c' ++ b) := by
  induction n generalizing c t with
  | zero =>
      obtain ⟨rfl, hc⟩ := Prod.mk.inj (Option.some.inj h)
      rw [List.append_cancel_right hc]
      rfl
  | succ n ih =>
      obtain ⟨d, r, taken, hskip, hread, rfl⟩ := takeSpaced_succ h
      obtain ⟨r, rfl⟩ := exists_append_of_suffix (takeSpaced_suffix hread)
      have hskip : skipSpace flags (c ++ a) = (d :: r) ++ a := hskip
      exact takeSpaced_of_skip (skipSpace_closing ha hb (by simp) hskip) (ih hread)

theorem readBracedHex_eq_some_iff {flags : Flags} {s rest : List Char} {x : Char} :
    readBracedHex flags s = some (x, rest) ↔
      ∃ digits d, spanSpaced flags.extended (· ≠ '\x7d') false s = (digits, d :: rest) ∧
        hexCharacter? digits = some x := by
  constructor
  · intro h
    rw [readBracedHex] at h
    split at h
    · rename_i digits d after heq
      obtain ⟨_, hdigits, ⟨⟩⟩ := Option.map_eq_some_iff.1 h
      exact ⟨digits, d, heq, hdigits⟩
    · cases h
  · rintro ⟨digits, d, hspan, hdigits⟩
    rw [readBracedHex, hspan]
    exact Option.map_eq_some_iff.2 ⟨x, hdigits, rfl⟩

theorem readBareHex_eq_some_iff {flags : Flags} {width : Nat} {s rest : List Char} {x : Char} :
    readBareHex flags width s = some (x, rest) ↔
      ∃ digits, takeSpaced flags width s = some (digits, rest) ∧ hexCharacter? digits = some x ∧
        (flags.unicode || width ≠ 2 || x.toNat < 0x80) = true := by
  simp only [readBareHex, Option.bind_eq_bind, Option.bind_eq_some_iff, Option.ite_none_right_eq_some,
    Option.some.injEq, Prod.mk.injEq, Prod.exists]
  constructor
  · rintro ⟨digits, _, htake, _, hdigits, hbyte, rfl, rfl⟩
    exact ⟨digits, htake, hdigits, hbyte⟩
  · rintro ⟨digits, htake, hdigits, hbyte⟩
    exact ⟨digits, rest, htake, x, hdigits, hbyte, rfl, rfl⟩

theorem readHex_of_brace {flags : Flags} {s t : List Char} (h : skipSpace flags s = '\x7b' :: t)
    (width : Nat) : readHex flags width s = readBracedHex flags t := by
  simp only [readHex, h]

theorem readHex_of_bare {flags : Flags} {s : List Char}
    (h : ∀ t, skipSpace flags s ≠ '\x7b' :: t) (width : Nat) :
    readHex flags width s = readBareHex flags width s := by
  unfold readHex
  split
  · rename_i heq
    exact absurd heq (h _)
  · rfl

theorem readHex_behind {flags : Flags} {width : Nat} (hwidth : 0 < width) {s rest : List Char}
    {x : Char} (h : readHex flags width s = some (x, rest)) : Behind rest s := by
  have hsuffix := skipSpace_suffix flags s
  by_cases hbrace : ∃ t, skipSpace flags s = '\x7b' :: t
  · obtain ⟨t, hskip⟩ := hbrace
    rw [readHex_of_brace hskip] at h
    obtain ⟨digits, d, hspan, -⟩ := readBracedHex_eq_some_iff.1 h
    have hrest := hspan ▸ spanSpaced_suffix flags.extended (· ≠ '\x7d') false t
    rw [hskip] at hsuffix
    exact (Behind.of_cons ((List.suffix_cons d rest).trans hrest)).of_suffix hsuffix
  · rw [readHex_of_bare fun t ht => hbrace ⟨t, ht⟩] at h
    obtain ⟨digits, htake, -⟩ := readBareHex_eq_some_iff.1 h
    obtain ⟨n, rfl⟩ : ∃ n, width = n + 1 := ⟨width - 1, by omega⟩
    obtain ⟨d, r, _, hskip, hread, -⟩ := takeSpaced_succ htake
    rw [hskip] at hsuffix
    exact (Behind.of_cons (takeSpaced_suffix hread)).of_suffix hsuffix

theorem readHex_reading {flags : Flags} {width : Nat} (hwidth : 0 < width) :
    Reading (readHex flags width) := by
  refine .of_closing (readHex_behind hwidth) ?_
  intro c c' a b x ha hb h
  by_cases hbrace : ∃ t, skipSpace flags (c ++ a) = '\x7b' :: t
  · obtain ⟨t, hskip⟩ := hbrace
    rw [readHex_of_brace hskip] at h
    obtain ⟨digits, d, hspan, hdigits⟩ := readBracedHex_eq_some_iff.1 h
    have hrest := hspan ▸ spanSpaced_suffix flags.extended (· ≠ '\x7d') false t
    obtain ⟨t, rfl⟩ := exists_append_of_suffix ((List.suffix_cons d _).trans hrest)
    have hskip : skipSpace flags (c ++ a) = ('\x7b' :: t) ++ a := hskip
    have hspan : spanSpaced flags.extended (· ≠ '\x7d') false (t ++ a) =
      (digits, (d :: c') ++ a) := hspan
    have hskip' : skipSpace flags (c ++ b) = '\x7b' :: (t ++ b) :=
      skipSpace_closing ha hb (by simp) hskip
    rw [readHex_of_brace hskip']
    exact readBracedHex_eq_some_iff.2 ⟨digits, d, spanSpaced_closing (by simp) hspan, hdigits⟩
  · rw [readHex_of_bare fun t ht => hbrace ⟨t, ht⟩] at h
    obtain ⟨digits, htake, hdigits⟩ := readBareHex_eq_some_iff.1 h
    obtain ⟨n, rfl⟩ : ∃ n, width = n + 1 := ⟨width - 1, by omega⟩
    obtain ⟨d, r, _, hskip, hread, -⟩ := takeSpaced_succ htake
    obtain ⟨r, rfl⟩ := exists_append_of_suffix (takeSpaced_suffix hread)
    have hskip : skipSpace flags (c ++ a) = (d :: r) ++ a := hskip
    -- The first digit stands before the text behind, so no brace appears there with another one.
    rw [readHex_of_bare]
    · exact readBareHex_eq_some_iff.2 ⟨digits, takeSpaced_closing ha hb htake, hdigits⟩
    · intro t ht
      rw [skipSpace_closing ha hb (by simp) hskip] at ht
      obtain ⟨rfl, -⟩ := List.cons.inj ht
      exact hbrace ⟨_, hskip⟩

theorem readBoundary_suffix {s rest : List Char} {e : Edge}
    (h : readBoundary s = some (e, rest)) : rest <:+ s := by
  rw [readBoundary.eq_def] at h
  split at h
  · rename_i c t
    split at h
    · split at h
      · rename_i after hdrop
        obtain ⟨_, -, ⟨⟩⟩ := Option.map_eq_some_iff.1 h
        have hsuffix := List.dropWhile_suffix isBoundaryChar (l := c :: t)
        rw [hdrop] at hsuffix
        exact ((List.suffix_cons _ rest).trans hsuffix).trans (List.suffix_cons _ _)
      · cases h
    · cases h
      exact List.suffix_rfl
  · cases h
    exact List.suffix_rfl

theorem readBoundary_of_bare {s : List Char}
    (h : ∀ d t, s = '\x7b' :: d :: t → isBoundaryChar d = false) :
    readBoundary s = some (.boundary, s) := by
  rw [readBoundary.eq_def]
  split
  · rename_i d t
    rw [if_neg]
    rw [h d t rfl]
    exact Bool.false_ne_true
  · rfl

theorem bare_append {a c : List Char} (ha : Closing a)
    (h : ∀ d t, c = '\x7b' :: d :: t → isBoundaryChar d = false) :
    ∀ d t, c ++ a = '\x7b' :: d :: t → isBoundaryChar d = false := by
  intro d t heq
  cases hname : isBoundaryChar d with
  | false => rfl
  | true =>
      have hmark : ')' ∉ ['\x7b', d] := by
        simp only [List.mem_cons, List.not_mem_nil, or_false, not_or]
        refine ⟨by decide, ?_⟩
        rintro rfl
        cases hname
      obtain ⟨v, rfl, -⟩ := exists_of_append_closing ha hmark heq
      rw [← hname, h d v rfl]

theorem readBoundary_closing {a b c c' : List Char} {e : Edge} (ha : Closing a) (hb : Closing b)
    (h : readBoundary (c ++ a) = some (e, c' ++ a)) : readBoundary (c ++ b) = some (e, c' ++ b) := by
  by_cases hbare : ∀ d t, c = '\x7b' :: d :: t → isBoundaryChar d = false
  · rw [readBoundary_of_bare (bare_append ha hbare)] at h
    obtain ⟨rfl, hc⟩ := Prod.mk.inj (Option.some.inj h)
    rw [readBoundary_of_bare (bare_append hb hbare), List.append_cancel_right hc]
  · obtain ⟨d, t, rfl, hname⟩ : ∃ d t, c = '\x7b' :: d :: t ∧ isBoundaryChar d = true := by
      simpa using hbare
    simp only [List.cons_append, readBoundary, if_pos hname] at h ⊢
    split at h
    · rename_i after hdrop
      obtain ⟨_, hlook, heq⟩ := Option.map_eq_some_iff.1 h
      obtain ⟨rfl, rfl⟩ := Prod.mk.inj heq
      obtain ⟨hdrop', htake⟩ := span_append (b := b) (c := d :: t) hdrop
      rw [List.cons_append] at hdrop' htake
      rw [hdrop', htake]
      exact Option.map_eq_some_iff.2 ⟨_, hlook, rfl⟩
    · cases h

theorem hexWidth?_pos {c : Char} {width : Nat} (h : hexWidth? c = some width) : 0 < width := by
  unfold hexWidth? at h
  split at h <;> cases h <;> decide

theorem readEscape_reading (flags : Flags) : Reading (readEscape flags) where
  behind := by
    intro s x rest h
    cases s with
    | nil => cases h
    | cons c s =>
        rw [readEscape] at h
        split at h
        · rename_i width hwidth
          obtain ⟨⟨e, r⟩, hread, ⟨⟩⟩ := Option.map_eq_some_iff.1 h
          exact .of_cons ((readHex_reading (hexWidth?_pos hwidth)).behind hread).suffix
        · split at h
          · obtain ⟨⟨e, r⟩, hread, ⟨⟩⟩ := Option.map_eq_some_iff.1 h
            exact .of_cons (readBoundary_suffix hread)
          · obtain ⟨_, -, ⟨⟩⟩ := Option.map_eq_some_iff.1 h
            exact .of_cons List.suffix_rfl
  cons := by
    intro d ds c' a b x ha hb h
    rw [readEscape] at h ⊢
    split at h
    · rename_i width hwidth
      obtain ⟨⟨e, r⟩, hread, heq⟩ := Option.map_eq_some_iff.1 h
      obtain ⟨rfl, rfl⟩ := Prod.mk.inj heq
      rw [(readHex_reading (hexWidth?_pos hwidth)).closing ha hb hread]
      rfl
    · split at h
      · rename_i hmark
        obtain ⟨⟨e, r⟩, hread, heq⟩ := Option.map_eq_some_iff.1 h
        obtain ⟨rfl, rfl⟩ := Prod.mk.inj heq
        rw [if_pos hmark, readBoundary_closing ha hb hread]
        rfl
      · rename_i hmark
        obtain ⟨e, hescape, heq⟩ := Option.map_eq_some_iff.1 h
        obtain ⟨rfl, hds⟩ := Prod.mk.inj heq
        rw [if_neg hmark, hescape, List.append_cancel_right hds]
        rfl

end LayeredConfig.Pattern.Syntax
