import LayeredConfig.Literal.Integer
import Mathlib.Data.Nat.Digits.Defs
import Mathlib.Tactic.Ring

/-!
The numbers that texts denote. Reading an integer succeeds exactly on the numerals whose number
lies between the bounds, and the digits of a number are a numeral for it.
-/

namespace LayeredConfig.Literal

/-- A text is a non-empty sequence of digits, the most significant first, of a number. -/
def Denotes (radix : Nat) (s : List Char) (n : Nat) : Prop :=
  s ≠ [] ∧ ∃ digits, s.mapM (digitValue? radix) = some digits ∧
    n = Nat.ofDigits radix digits.reverse

/-- A numeral: digits, after a sign or none; a minus sign stands only where it is allowed. -/
inductive Numeral (radix : Nat) (negative : Prop) : List Char → Int → Prop
  | plain {s n} : Denotes radix s n → Numeral radix negative s n
  | plus {s n} : Denotes radix s n → Numeral radix negative ('+' :: s) n
  | minus {s n} : negative → Denotes radix s n → Numeral radix negative ('-' :: s) (-n)

theorem digitValue?_lt {radix d : Nat} {c : Char} (h : digitValue? radix c = some d) :
    d < radix := by
  simp only [digitValue?, Option.ite_none_right_eq_some, Option.some.injEq] at h
  obtain ⟨hlt, rfl⟩ := h
  exact hlt

theorem ofDigits_push (radix acc d : Nat) (digits : List Nat) :
    acc * radix ^ (d :: digits).length + Nat.ofDigits radix (d :: digits).reverse =
      (acc * radix + d) * radix ^ digits.length + Nat.ofDigits radix digits.reverse := by
  rw [List.reverse_cons, Nat.ofDigits_append, List.length_reverse, Nat.ofDigits_singleton,
    List.length_cons]
  ring

theorem mapM_digitValue?_cons {radix : Nat} {c : Char} {s : List Char} {digits : List Nat} :
    (c :: s).mapM (digitValue? radix) = some digits ↔
      ∃ d rest, digitValue? radix c = some d ∧ s.mapM (digitValue? radix) = some rest ∧
        digits = d :: rest := by
  simp only [List.mapM_cons, Option.bind_eq_bind, Option.bind_eq_some_iff, Option.pure_def,
    Option.some.injEq]
  constructor
  · rintro ⟨d, hd, rest, hrest, rfl⟩
    exact ⟨d, rest, hd, hrest, rfl⟩
  · rintro ⟨d, rest, hd, hrest, rfl⟩
    exact ⟨d, hd, rest, hrest, rfl⟩

theorem Denotes.digit {radix n : Nat} {s : List Char} (h : Denotes radix s n) {c : Char}
    (hc : c ∈ s) : digitValue? radix c ≠ none := by
  obtain ⟨-, digits, hdigits, -⟩ := h
  induction s generalizing digits with
  | nil => cases hc
  | cons c' s ih =>
      obtain ⟨d, rest, hd, hrest, rfl⟩ := mapM_digitValue?_cons.1 hdigits
      rcases List.mem_cons.1 hc with rfl | hc
      · rw [hd]
        exact Option.some_ne_none d
      · exact ih hc rest hrest

theorem mapM_digitValue?_spec {radix : Nat} {s : List Char} {digits : List Nat}
    (h : s.mapM (digitValue? radix) = some digits) :
    digits.length = s.length ∧ ∀ d ∈ digits, d < radix := by
  induction s generalizing digits with
  | nil =>
      cases h
      exact ⟨rfl, nofun⟩
  | cons c s ih =>
      obtain ⟨d, rest, hd, hrest, rfl⟩ := mapM_digitValue?_cons.1 h
      obtain ⟨hlength, hdigits⟩ := ih hrest
      exact ⟨congrArg (· + 1) hlength, List.forall_mem_cons.2 ⟨digitValue?_lt hd, hdigits⟩⟩

theorem Denotes.lt {radix n : Nat} {s : List Char} (hradix : 1 < radix) (h : Denotes radix s n) :
    n < radix ^ s.length := by
  obtain ⟨-, digits, hdigits, rfl⟩ := h
  obtain ⟨hlength, hlt⟩ := mapM_digitValue?_spec hdigits
  rw [← hlength, ← List.length_reverse]
  exact Nat.ofDigits_lt_base_pow_length hradix fun d hd => hlt d (List.mem_reverse.1 hd)

theorem readUp_eq_ok_iff {radix hi acc : Nat} (hacc : acc ≤ hi) {s : List Char} {n : Nat} :
    readUp radix hi acc s = .ok n ↔
      ∃ digits, s.mapM (digitValue? radix) = some digits ∧
        n = acc * radix ^ digits.length + Nat.ofDigits radix digits.reverse ∧ n ≤ hi := by
  induction s generalizing acc with
  | nil =>
      simp only [readUp, Except.ok.injEq, List.mapM_nil]
      constructor
      · rintro rfl
        exact ⟨[], rfl, by simp, hacc⟩
      · rintro ⟨digits, hdigits, hn, -⟩
        cases hdigits
        simpa using hn.symm
  | cons c s ih =>
      simp only [mapM_digitValue?_cons, readUp]
      cases hd : digitValue? radix c with
      | none => simp
      | some d =>
          have hradix : 0 < radix := Nat.zero_lt_of_lt (digitValue?_lt hd)
          have hpow (rest : List Nat) : 0 < radix ^ rest.length := Nat.pow_pos hradix
          constructor
          · intro h
            simp only at h
            split at h
            · rename_i hle
              obtain ⟨rest, hrest, hn, hbound⟩ := (ih hle).1 h
              exact ⟨d :: rest, ⟨d, rest, rfl, hrest, rfl⟩, by rw [ofDigits_push, hn], hbound⟩
            · cases h
          · rintro ⟨-, ⟨d', rest, hd', hrest, rfl⟩, hn, hbound⟩
            obtain rfl := Option.some.inj hd'
            rw [ofDigits_push] at hn
            have hle : acc * radix + d ≤ hi := by
              have hgrow := Nat.le_mul_of_pos_right (acc * radix + d) (hpow rest)
              omega
            simp only [hle, if_true]
            exact (ih hle).2 ⟨rest, hrest, hn, hbound⟩

theorem readDown_eq_ok_iff {radix lo acc : Nat} {s : List Char} {n : Nat} :
    readDown radix lo acc s = .ok n ↔ readUp radix lo acc s = .ok n := by
  induction s generalizing acc with
  | nil => rfl
  | cons c s ih =>
      simp only [readDown, readUp]
      split
      · rfl
      · split
        · exact ih
        · simp

theorem denotes_iff_readUp {radix hi : Nat} {s : List Char} (hs : s ≠ []) {n : Nat} :
    readUp radix hi 0 s = .ok n ↔ Denotes radix s n ∧ n ≤ hi := by
  rw [readUp_eq_ok_iff (Nat.zero_le hi)]
  simp only [Nat.zero_mul, Nat.zero_add, Denotes, ne_eq, hs, not_false_eq_true, true_and]
  constructor
  · rintro ⟨digits, hdigits, hn, hbound⟩
    exact ⟨⟨digits, hdigits, hn⟩, hbound⟩
  · rintro ⟨⟨digits, hdigits, hn⟩, hbound⟩
    exact ⟨digits, hdigits, hn, hbound⟩

theorem not_denotes_sign {radix n : Nat} {c : Char} {s : List Char}
    (hc : digitValue? radix c = none) : ¬ Denotes radix (c :: s) n := by
  rintro ⟨-, digits, hdigits, -⟩
  obtain ⟨d, rest, hd, -, -⟩ := mapM_digitValue?_cons.1 hdigits
  rw [hc] at hd
  cases hd

theorem digitValue?_sign (radix : Nat) :
    digitValue? radix '+' = none ∧ digitValue? radix '-' = none := by
  constructor
  · change (if radix < radix then some radix else none) = none
    rw [if_neg (Nat.lt_irrefl radix)]
  · change (if radix < radix then some radix else none) = none
    rw [if_neg (Nat.lt_irrefl radix)]

namespace Numeral

variable {radix : Nat} {negative : Prop} {s : List Char} {n : Int}

theorem plus_iff :
    Numeral radix negative ('+' :: s) n ↔ ∃ k : Nat, Denotes radix s k ∧ n = k := by
  constructor
  · intro h
    cases h with
    | plain hk => exact absurd hk (not_denotes_sign (digitValue?_sign radix).1)
    | plus hk => exact ⟨_, hk, rfl⟩
  · rintro ⟨k, hk, rfl⟩
    exact .plus hk

theorem minus_iff :
    Numeral radix negative ('-' :: s) n ↔ negative ∧ ∃ k : Nat, Denotes radix s k ∧ n = -k := by
  constructor
  · intro h
    cases h with
    | plain hk => exact absurd hk (not_denotes_sign (digitValue?_sign radix).2)
    | minus hneg hk => exact ⟨hneg, _, hk, rfl⟩
  · rintro ⟨hneg, k, hk, rfl⟩
    exact .minus hneg hk

theorem plain_iff (hplus : ∀ t, s ≠ '+' :: t) (hminus : ∀ t, s ≠ '-' :: t) :
    Numeral radix negative s n ↔ ∃ k : Nat, Denotes radix s k ∧ n = k := by
  constructor
  · intro h
    cases h with
    | plain hk => exact ⟨_, hk, rfl⟩
    | plus hk => exact absurd rfl (hplus _)
    | minus hneg hk => exact absurd rfl (hminus _)
  · rintro ⟨k, hk, rfl⟩
    exact .plain hk

end Numeral

theorem readUp_cast_eq_ok_iff {radix : Nat} {hi n : Int} (hhi : 0 ≤ hi) {s : List Char}
    (hs : s ≠ []) :
    (do return ((← readUp radix hi.toNat 0 s : Nat) : Int) : Except LiteralFault Int) = .ok n ↔
      ∃ k : Nat, Denotes radix s k ∧ n = k ∧ n ≤ hi := by
  constructor
  · intro h
    cases hread : readUp radix hi.toNat 0 s with
    | error fault =>
        rw [hread] at h
        cases h
    | ok k =>
        rw [hread] at h
        cases h
        obtain ⟨hk, hbound⟩ := (denotes_iff_readUp hs).1 hread
        exact ⟨k, hk, rfl, by omega⟩
  · rintro ⟨k, hk, rfl, hbound⟩
    have hread : readUp radix hi.toNat 0 s = .ok k :=
      (denotes_iff_readUp hs).2 ⟨hk, by omega⟩
    rw [hread]
    rfl

theorem readDown_cast_eq_ok_iff {radix : Nat} {lo n : Int} (hlo : lo ≤ 0) {s : List Char}
    (hs : s ≠ []) :
    (do return -((← readDown radix lo.natAbs 0 s : Nat) : Int) : Except LiteralFault Int) = .ok n ↔
      ∃ k : Nat, Denotes radix s k ∧ n = -k ∧ lo ≤ n := by
  constructor
  · intro h
    cases hread : readDown radix lo.natAbs 0 s with
    | error fault =>
        rw [hread] at h
        cases h
    | ok k =>
        rw [hread] at h
        cases h
        obtain ⟨hk, hbound⟩ := (denotes_iff_readUp hs).1 (readDown_eq_ok_iff.1 hread)
        exact ⟨k, hk, rfl, by omega⟩
  · rintro ⟨k, hk, rfl, hbound⟩
    have hread : readDown radix lo.natAbs 0 s = .ok k :=
      readDown_eq_ok_iff.2 ((denotes_iff_readUp hs).2 ⟨hk, by omega⟩)
    rw [hread]
    rfl

/-- A text is read as an integer between two bounds if it is a numeral for it. -/
theorem readInteger_eq_ok_iff {radix : Nat} {lo hi n : Int} (hlo : lo ≤ 0) (hhi : 0 ≤ hi)
    {s : List Char} :
    readInteger radix lo hi s = .ok n ↔ Numeral radix (lo < 0) s n ∧ lo ≤ n ∧ n ≤ hi := by
  have hempty (k : Nat) : ¬ Denotes radix [] k := fun h => h.1 rfl
  unfold readInteger
  split
  · simp [Numeral.plain_iff (s := []) nofun nofun, hempty]
  · simp [Numeral.plus_iff, hempty]
  · simp [Numeral.minus_iff, hempty]
  · rename_i cs hcs
    rw [readUp_cast_eq_ok_iff hhi hcs, Numeral.plus_iff]
    constructor
    · rintro ⟨k, hk, rfl, hbound⟩
      exact ⟨⟨k, hk, rfl⟩, by omega, hbound⟩
    · rintro ⟨⟨k, hk, rfl⟩, -, hbound⟩
      exact ⟨k, hk, rfl, hbound⟩
  · rename_i cs hcs
    rw [Numeral.minus_iff]
    split
    · rename_i hneg
      rw [readDown_cast_eq_ok_iff hlo hcs]
      constructor
      · rintro ⟨k, hk, rfl, hbound⟩
        exact ⟨⟨hneg, k, hk, rfl⟩, hbound, by omega⟩
      · rintro ⟨⟨-, k, hk, rfl⟩, hbound, -⟩
        exact ⟨k, hk, rfl, hbound⟩
    · rename_i hneg
      simp [hneg]
  · rename_i hnil _ _ hplus hminus
    rw [readUp_cast_eq_ok_iff hhi hnil, Numeral.plain_iff hplus hminus]
    constructor
    · rintro ⟨k, hk, rfl, hbound⟩
      exact ⟨⟨k, hk, rfl⟩, by omega, hbound⟩
    · rintro ⟨⟨k, hk, rfl⟩, -, hbound⟩
      exact ⟨k, hk, rfl, hbound⟩

theorem readNatural_eq_ok_iff {radix hi n : Nat} {s : List Char} :
    readNatural radix hi s = .ok n ↔
      (Denotes radix s n ∨ ∃ t, s = '+' :: t ∧ Denotes radix t n) ∧ n ≤ hi := by
  have hinteger (z : Int) : readInteger radix 0 hi s = .ok z ↔
      Numeral radix (0 < (0 : Int)) s z ∧ 0 ≤ z ∧ z ≤ hi :=
    readInteger_eq_ok_iff (Int.le_refl 0) (Int.natCast_nonneg hi)
  have hnatural : readNatural radix hi s = .ok n ↔ readInteger radix 0 hi s = .ok (n : Int) := by
    rw [readNatural]
    cases hread : readInteger radix 0 hi s with
    | error fault => simp
    | ok z =>
        obtain ⟨-, hz, -⟩ := (hinteger z).1 hread
        change Except.ok z.toNat = Except.ok n ↔ _
        rw [Except.ok.injEq, Except.ok.injEq]
        omega
  rw [hnatural, hinteger]
  constructor
  · rintro ⟨hnumeral, -, hbound⟩
    refine ⟨?_, by omega⟩
    generalize hz : (n : Int) = z at hnumeral
    cases hnumeral with
    | plain hk => exact .inl (Int.ofNat.inj hz ▸ hk)
    | plus hk => exact .inr ⟨_, rfl, Int.ofNat.inj hz ▸ hk⟩
    | minus hneg _ => exact absurd hneg (Int.lt_irrefl 0)
  · rintro ⟨hk | ⟨t, rfl, hk⟩, hbound⟩
    · exact ⟨.plain hk, by omega, by omega⟩
    · exact ⟨.plus hk, by omega, by omega⟩

theorem digitValue?_digitChar {radix d : Nat} (hradix : radix ≤ 16) (hd : d < radix) :
    digitValue? radix d.digitChar = some d := by
  have hall : ∀ b < 17, ∀ e < b, digitValue? b e.digitChar = some e := by decide
  exact hall radix (by omega) d hd

theorem denotes_toDigits {radix : Nat} (hlow : 1 < radix) (hhigh : radix ≤ 16) (n : Nat) :
    Denotes radix (Nat.toDigits radix n) n := by
  induction n using Nat.strongRecOn with
  | _ n ih =>
      refine ⟨Nat.toDigits_ne_nil, ?_⟩
      by_cases hn : n < radix
      · refine ⟨[n], ?_, by simp⟩
        rw [Nat.toDigits_of_lt_base hn, mapM_digitValue?_cons]
        exact ⟨n, [], digitValue?_digitChar hhigh hn, rfl, rfl⟩
      · have hbase : radix ≤ n := Nat.le_of_not_lt hn
        have hdigit : n % radix < radix := Nat.mod_lt n (by omega)
        obtain ⟨-, digits, hdigits, hvalue⟩ := ih (n / radix) (Nat.div_lt_self (by omega) hlow)
        refine ⟨digits ++ [n % radix], ?_, ?_⟩
        · rw [Nat.toDigits_of_base_le hlow hbase, List.mapM_append, hdigits]
          simp [digitValue?_digitChar hhigh hdigit]
        · rw [List.reverse_append, List.reverse_singleton, List.singleton_append, Nat.ofDigits_cons,
            ← hvalue]
          exact (Nat.mod_add_div n radix).symm

theorem readNatural_toDigits {radix hi n : Nat} (hlow : 1 < radix) (hhigh : radix ≤ 16)
    (hn : n ≤ hi) : readNatural radix hi (Nat.toDigits radix n) = .ok n :=
  readNatural_eq_ok_iff.2 ⟨.inl (denotes_toDigits hlow hhigh n), hn⟩

end LayeredConfig.Literal
