import LayeredConfig.Converter.Standard
import LayeredConfig.Proofs.Literal.Integer
import LayeredConfig.Proofs.Text.Trimming

/-!
The texts of the integers of a kind. A text is read by its name or as a numeral; from a hexadecimal
one the mark is taken out first, so what is read is a numeral again (`unmark?`), and a sign may
stand behind the mark as well as before it.
-/

namespace LayeredConfig

theorem IntegerKind.bounds (kind : IntegerKind) :
    kind.lo ≤ 0 ∧ 0 ≤ kind.hi ∧ (kind.lo < 0 ↔ kind.signed = true) := by
  cases kind <;> decide

namespace Literal

def hexMarks : List (List Char) := ["0x".toList, "0X".toList, "#".toList]

/-- A hexadecimal numeral: a mark and digits, after a sign or none; a minus sign stands only where
it is allowed. -/
inductive MarkedNumeral (negative : Prop) : List Char → Int → Prop
  | plain {mark s n} : mark ∈ hexMarks → Denotes 16 s n → MarkedNumeral negative (mark ++ s) n
  | plus {mark s n} : mark ∈ hexMarks → Denotes 16 s n →
      MarkedNumeral negative ('+' :: (mark ++ s)) n
  | minus {mark s n} : negative → mark ∈ hexMarks → Denotes 16 s n →
      MarkedNumeral negative ('-' :: (mark ++ s)) (-n)

/-- What is taken for a hexadecimal numeral besides: its sign stands behind the mark, and before the
mark there may be a plus sign. -/
inductive LateNumeral (negative : Prop) : List Char → Int → Prop
  | plus {lead mark s n} : lead ∈ [[], ['+']] → mark ∈ hexMarks → Denotes 16 s n →
      LateNumeral negative (lead ++ (mark ++ '+' :: s)) n
  | minus {lead mark s n} : negative → lead ∈ [[], ['+']] → mark ∈ hexMarks → Denotes 16 s n →
      LateNumeral negative (lead ++ (mark ++ '-' :: s)) (-n)

/-- The texts of an integer of a kind: the name of a bound in any case, or a numeral. -/
inductive IntegerText (kind : IntegerKind) : List Char → Int → Prop
  | least {s} : s.map Text.asciiLower = "min".toList → IntegerText kind s kind.lo
  | greatest {s} : s.map Text.asciiLower = "max".toList → IntegerText kind s kind.hi
  | decimal {s n} : Numeral 10 kind.signed s n → IntegerText kind s n
  | hexadecimal {s n} : MarkedNumeral kind.signed s n → IntegerText kind s n

/-- A sign stands right behind a mark that no minus sign stands before. -/
def SignedLate (s : List Char) : Prop :=
  ∃ lead ∈ [[], ['+']], ∃ mark ∈ hexMarks, ∃ sign ∈ ['+', '-'], ∃ rest,
    s = lead ++ (mark ++ sign :: rest)

theorem hexDigits?_eq_some_iff {s digits : List Char} :
    hexDigits? s = some digits ↔ ∃ mark ∈ hexMarks, s = mark ++ digits := by
  constructor
  · intro h
    unfold hexDigits? at h
    split at h
    · cases h
      exact ⟨"0x".toList, by decide, rfl⟩
    · cases h
      exact ⟨"0X".toList, by decide, rfl⟩
    · cases h
      exact ⟨"#".toList, by decide, rfl⟩
    · cases h
  · rintro ⟨mark, hmark, rfl⟩
    simp only [hexMarks, List.mem_cons, List.not_mem_nil, or_false] at hmark
    rcases hmark with rfl | rfl | rfl <;> rfl

/-- A text without its mark of hexadecimal digits, as it is read: a plus sign before the mark is
dropped with it. -/
def unmark? : List Char → Option (List Char)
  | '-' :: rest => (hexDigits? rest).map ('-' :: ·)
  | '+' :: rest => hexDigits? rest
  | rest => hexDigits? rest

theorem unmark?_mark {mark : List Char} (h : mark ∈ hexMarks) (s : List Char) :
    unmark? (mark ++ s) = some s := by
  simp only [hexMarks, List.mem_cons, List.not_mem_nil, or_false] at h
  rcases h with rfl | rfl | rfl <;> rfl

theorem unmark?_plus {mark : List Char} (h : mark ∈ hexMarks) (s : List Char) :
    unmark? ('+' :: (mark ++ s)) = some s :=
  hexDigits?_eq_some_iff.2 ⟨mark, h, rfl⟩

theorem unmark?_lead {lead mark : List Char} (hlead : lead ∈ [[], ['+']]) (hmark : mark ∈ hexMarks)
    (s : List Char) : unmark? (lead ++ (mark ++ s)) = some s := by
  simp only [List.mem_cons, List.not_mem_nil, or_false] at hlead
  rcases hlead with rfl | rfl
  · exact unmark?_mark hmark s
  · exact unmark?_plus hmark s

theorem unmark?_minus {mark : List Char} (h : mark ∈ hexMarks) (s : List Char) :
    unmark? ('-' :: (mark ++ s)) = some ('-' :: s) :=
  Option.map_eq_some_iff.2 ⟨s, hexDigits?_eq_some_iff.2 ⟨mark, h, rfl⟩, rfl⟩

theorem unmark?_cases {s t : List Char} (h : unmark? s = some t) :
    (∃ lead ∈ [[], ['+']], ∃ mark ∈ hexMarks, s = lead ++ (mark ++ t)) ∨
      ∃ mark ∈ hexMarks, ∃ digits, s = '-' :: (mark ++ digits) ∧ t = '-' :: digits := by
  unfold unmark? at h
  split at h
  · obtain ⟨digits, hdigits, rfl⟩ := Option.map_eq_some_iff.1 h
    obtain ⟨mark, hmark, rfl⟩ := hexDigits?_eq_some_iff.1 hdigits
    exact .inr ⟨mark, hmark, digits, rfl, rfl⟩
  · obtain ⟨mark, hmark, rfl⟩ := hexDigits?_eq_some_iff.1 h
    exact .inl ⟨['+'], by decide, mark, hmark, rfl⟩
  · obtain ⟨mark, hmark, rfl⟩ := hexDigits?_eq_some_iff.1 h
    exact .inl ⟨[], by decide, mark, hmark, rfl⟩

theorem exists_unmark?_iff {negative : Prop} {s : List Char} {n : Int} :
    (∃ t, unmark? s = some t ∧ Numeral 16 negative t n) ↔
      MarkedNumeral negative s n ∨ LateNumeral negative s n := by
  constructor
  · rintro ⟨t, ht, hnumeral⟩
    rcases unmark?_cases ht with ⟨lead, hlead, mark, hmark, rfl⟩ | ⟨mark, hmark, digits, rfl, rfl⟩
    · cases hnumeral with
      | plain hdigits =>
          simp only [List.mem_cons, List.not_mem_nil, or_false] at hlead
          rcases hlead with rfl | rfl
          · rw [List.nil_append]
            exact .inl (.plain hmark hdigits)
          · rw [List.singleton_append]
            exact .inl (.plus hmark hdigits)
      | plus hdigits => exact .inr (.plus hlead hmark hdigits)
      | minus hnegative hdigits => exact .inr (.minus hnegative hlead hmark hdigits)
    · obtain ⟨hnegative, k, hdigits, rfl⟩ := Numeral.minus_iff.1 hnumeral
      exact .inl (.minus hnegative hmark hdigits)
  · rintro (hmarked | hlate)
    · cases hmarked with
      | plain hmark hdigits => exact ⟨_, unmark?_mark hmark _, .plain hdigits⟩
      | plus hmark hdigits => exact ⟨_, unmark?_plus hmark _, .plain hdigits⟩
      | minus hnegative hmark hdigits =>
          exact ⟨_, unmark?_minus hmark _, .minus hnegative hdigits⟩
    · cases hlate with
      | plus hlead hmark hdigits => exact ⟨_, unmark?_lead hlead hmark _, .plus hdigits⟩
      | minus hnegative hlead hmark hdigits =>
          exact ⟨_, unmark?_lead hlead hmark _, .minus hnegative hdigits⟩

theorem asciiLower_eq_m {c : Char} (h : Text.asciiLower c = 'm') : c = 'm' ∨ c = 'M' := by
  unfold Text.asciiLower at h
  split at h
  · rename_i hcapital
    have hbound : c.toNat ≤ 'Z'.toNat := hcapital.2
    have hall : ∀ n < 91, Char.ofNat (n + 32) = 'm' → Char.ofNat n = 'M' := by decide
    have hc := hall c.toNat (Nat.lt_succ_of_le hbound) h
    rw [Char.ofNat_toNat] at hc
    exact .inr hc
  · exact .inl h

theorem folded_eq_iff {s : List Char} {word : String} :
    folded s = word ↔ s.map Text.asciiLower = word.toList := by
  constructor
  · rintro rfl
    exact (String.toList_ofList ..).symm
  · intro h
    rw [folded, h, String.ofList_toList]

/-- The names of the bounds start with a letter that no numeral starts with. -/
def Nameless (s : List Char) : Prop := ∀ c ∈ s.head?, c ≠ 'm' ∧ c ≠ 'M'

theorem Nameless.folded_ne {s : List Char} (h : Nameless s) {word : String}
    (hword : word.toList.head? = some 'm') : folded s ≠ word := by
  intro heq
  rw [folded_eq_iff] at heq
  rw [← heq, List.head?_map] at hword
  obtain ⟨c, hc, hlower⟩ := Option.map_eq_some_iff.1 hword
  obtain ⟨hsmall, hcapital⟩ := h c hc
  exact (asciiLower_eq_m hlower).elim hsmall hcapital

theorem Numeral.nameless {negative : Prop} {s : List Char} {n : Int} (h : Numeral 10 negative s n) :
    Nameless s := by
  cases h with
  | plain hdigits =>
      intro c hc
      have hdigit := hdigits.digit (List.mem_of_mem_head? hc)
      constructor
      · rintro rfl
        exact hdigit rfl
      · rintro rfl
        exact hdigit rfl
  | plus =>
      rintro c ⟨⟩
      decide
  | minus =>
      rintro c ⟨⟩
      decide

theorem nameless_of_unmark? {s t : List Char} (h : unmark? s = some t) : Nameless s := by
  rcases unmark?_cases h with ⟨lead, hlead, mark, hmark, rfl⟩ | ⟨mark, -, digits, rfl, -⟩
  · simp only [hexMarks, List.mem_cons, List.not_mem_nil, or_false] at hlead hmark
    rcases hlead with rfl | rfl
    · rcases hmark with rfl | rfl | rfl
      all_goals
        rintro c ⟨⟩
        decide
    · rintro c ⟨⟩
      decide
  · rintro c ⟨⟩
    decide

theorem readTrimmedInteger_eq (kind : IntegerKind) (s : List Char) :
    readTrimmedInteger kind s =
      if folded s = "min" then .ok kind.lo
      else if folded s = "max" then .ok kind.hi
      else match unmark? s with
        | some t => readInteger 16 kind.lo kind.hi t
        | none => readInteger 10 kind.lo kind.hi s := by
  unfold readTrimmedInteger
  refine if_congr Iff.rfl rfl (if_congr Iff.rfl rfl ?_)
  rcases s with _ | ⟨c, s⟩
  · rfl
  · by_cases hminus : c = '-'
    · subst hminus
      simp only [unmark?]
      cases hexDigits? s <;> rfl
    · by_cases hplus : c = '+'
      · subst hplus
        rfl
      · cases hdigits : hexDigits? (c :: s) <;>
          simp only [unmark?, List.cons.injEq, hminus, hplus, hdigits, false_and, imp_self,
            implies_true, List.nil_append]

theorem Numeral.of_mem {radix : Nat} {negative : Prop} {s : List Char} {n : Int}
    (h : Numeral radix negative s n) {c : Char} (hc : c ∈ s) :
    c = '+' ∨ c = '-' ∨ digitValue? radix c ≠ none := by
  cases h with
  | plain hdigits => exact .inr (.inr (hdigits.digit hc))
  | plus hdigits => exact (List.mem_cons.1 hc).imp_right fun hc => .inr (hdigits.digit hc)
  | minus _ hdigits => exact .inr ((List.mem_cons.1 hc).imp_right hdigits.digit)

theorem exists_mem_of_unmark? {s t : List Char} (h : unmark? s = some t) :
    ∃ c ∈ s, c ∈ ['x', 'X', '#'] := by
  have hall : ∀ mark ∈ hexMarks, ∃ c ∈ mark, c ∈ ['x', 'X', '#'] := by
    intro mark hmark
    simp only [hexMarks, List.mem_cons, List.not_mem_nil, or_false] at hmark
    rcases hmark with rfl | rfl | rfl
    · exact ⟨'x', by decide, by decide⟩
    · exact ⟨'X', by decide, by decide⟩
    · exact ⟨'#', by decide, by decide⟩
  rcases unmark?_cases h with ⟨lead, -, mark, hmark, rfl⟩ | ⟨mark, hmark, digits, rfl, -⟩
  · obtain ⟨c, hc, hletter⟩ := hall mark hmark
    exact ⟨c, List.mem_append_right _ (List.mem_append_left _ hc), hletter⟩
  · obtain ⟨c, hc, hletter⟩ := hall mark hmark
    exact ⟨c, List.mem_cons_of_mem _ (List.mem_append_left _ hc), hletter⟩

theorem Numeral.unmark?_eq_none {negative : Prop} {s : List Char} {n : Int}
    (h : Numeral 10 negative s n) : unmark? s = none := by
  rw [Option.eq_none_iff_forall_ne_some]
  intro t ht
  have hall : ∀ c ∈ ['x', 'X', '#'], ¬ (c = '+' ∨ c = '-' ∨ digitValue? 10 c ≠ none) :=
    Text.forall_of_all (by decide)
  obtain ⟨c, hc, hletter⟩ := exists_mem_of_unmark? ht
  exact hall c hletter (h.of_mem hc)

theorem text_iff {kind : IntegerKind} {s : List Char} {n : Int} :
    IntegerText kind s n ∨ LateNumeral kind.signed s n ↔
      folded s = "min" ∧ n = kind.lo ∨ folded s = "max" ∧ n = kind.hi ∨
        Numeral 10 kind.signed s n ∨ ∃ t, unmark? s = some t ∧ Numeral 16 kind.signed t n := by
  simp only [exists_unmark?_iff, folded_eq_iff]
  constructor
  · rintro (htext | hlate)
    · cases htext with
      | least hname => exact .inl ⟨hname, rfl⟩
      | greatest hname => exact .inr (.inl ⟨hname, rfl⟩)
      | decimal hnumeral => exact .inr (.inr (.inl hnumeral))
      | hexadecimal hmarked => exact .inr (.inr (.inr (.inl hmarked)))
    · exact .inr (.inr (.inr (.inr hlate)))
  · rintro (⟨hname, rfl⟩ | ⟨hname, rfl⟩ | hnumeral | hmarked | hlate)
    · exact .inl (.least hname)
    · exact .inl (.greatest hname)
    · exact .inl (.decimal hnumeral)
    · exact .inl (.hexadecimal hmarked)
    · exact .inr hlate

/-- An integer of a kind is read from its texts, and from the numerals whose sign stands behind the
mark. -/
theorem readTrimmedInteger_eq_ok_iff {kind : IntegerKind} {s : List Char} {n : Int} :
    readTrimmedInteger kind s = .ok n ↔
      (IntegerText kind s n ∨ LateNumeral kind.signed s n) ∧ kind.Holds n := by
  obtain ⟨hlo, hhi, hsigned⟩ := kind.bounds
  have hlower : kind.Holds kind.lo := ⟨Int.le_refl _, Int.le_trans hlo hhi⟩
  have hupper : kind.Holds kind.hi := ⟨Int.le_trans hlo hhi, Int.le_refl _⟩
  have hread (radix : Nat) (t : List Char) :
      readInteger radix kind.lo kind.hi t = .ok n ↔
        Numeral radix kind.signed t n ∧ kind.Holds n := by
    rw [readInteger_eq_ok_iff hlo hhi, hsigned]
    rfl
  have hnumeral : (Numeral 10 kind.signed s n ∨
      ∃ t, unmark? s = some t ∧ Numeral 16 kind.signed t n) → Nameless s := by
    rintro (hdecimal | ⟨t, ht, -⟩)
    · exact hdecimal.nameless
    · exact nameless_of_unmark? ht
  rw [readTrimmedInteger_eq, text_iff]
  split_ifs with hmin hmax
  · rw [Except.ok.injEq]
    constructor
    · rintro rfl
      exact ⟨.inl ⟨hmin, rfl⟩, hlower⟩
    · rintro ⟨⟨-, hn⟩ | ⟨hmax, -⟩ | h, -⟩
      · exact hn.symm
      · exact absurd (hmin.symm.trans hmax) (by decide)
      · exact absurd hmin ((hnumeral h).folded_ne rfl)
  · rw [Except.ok.injEq]
    constructor
    · rintro rfl
      exact ⟨.inr (.inl ⟨hmax, rfl⟩), hupper⟩
    · rintro ⟨⟨hmin', -⟩ | ⟨-, hn⟩ | h, -⟩
      · exact absurd hmin' hmin
      · exact hn.symm
      · exact absurd hmax ((hnumeral h).folded_ne rfl)
  · cases hmark : unmark? s with
    | none => simp [hread, hmin, hmax]
    | some t =>
        have hdecimal : ¬ Numeral 10 kind.signed s n := by
          intro h
          rw [h.unmark?_eq_none] at hmark
          cases hmark
        simp [hread, hmin, hmax, hdecimal]

theorem LateNumeral.signedLate {negative : Prop} {s : List Char} {n : Int}
    (h : LateNumeral negative s n) : SignedLate s := by
  cases h with
  | plus hlead hmark _ => exact ⟨_, hlead, _, hmark, '+', by decide, _, rfl⟩
  | minus _ hlead hmark _ => exact ⟨_, hlead, _, hmark, '-', by decide, _, rfl⟩

theorem minus_ne_lead {lead mark : List Char} (hlead : lead ∈ [[], ['+']]) (hmark : mark ∈ hexMarks)
    (s t : List Char) : '-' :: t ≠ lead ++ (mark ++ s) := by
  simp only [hexMarks, List.mem_cons, List.not_mem_nil, or_false] at hlead hmark
  rcases hlead with rfl | rfl
  · rcases hmark with rfl | rfl | rfl <;> simp
  · simp

theorem MarkedNumeral.not_signedLate {negative : Prop} {s : List Char} {n : Int}
    (h : MarkedNumeral negative s n) : ¬ SignedLate s := by
  rintro ⟨lead, hlead, mark, hmark, sign, hsign, rest, hs⟩
  have hrest : unmark? s = some (sign :: rest) := hs ▸ unmark?_lead hlead hmark _
  have hnone {digits : List Char} {k : Nat} (hdigits : Denotes 16 digits k) :
      digits ≠ sign :: rest := by
    rintro rfl
    refine not_denotes_sign ?_ hdigits
    simp only [List.mem_cons, List.not_mem_nil, or_false] at hsign
    rcases hsign with rfl | rfl <;> rfl
  cases h with
  | plain hmark' hdigits =>
      rw [unmark?_mark hmark'] at hrest
      exact hnone hdigits (Option.some.inj hrest)
  | plus hmark' hdigits =>
      rw [unmark?_plus hmark'] at hrest
      exact hnone hdigits (Option.some.inj hrest)
  | minus _ _ _ => exact minus_ne_lead hlead hmark _ _ hs

theorem IntegerText.not_signedLate {kind : IntegerKind} {s : List Char} {n : Int}
    (h : IntegerText kind s n) : ¬ SignedLate s := by
  intro hlate
  have ⟨lead, hlead, mark, hmark, sign, _, rest, hs⟩ := hlate
  have hrest : unmark? s = some (sign :: rest) := hs ▸ unmark?_lead hlead hmark _
  cases h with
  | least hname => exact (nameless_of_unmark? hrest).folded_ne rfl (folded_eq_iff.2 hname)
  | greatest hname => exact (nameless_of_unmark? hrest).folded_ne rfl (folded_eq_iff.2 hname)
  | decimal hnumeral =>
      rw [hnumeral.unmark?_eq_none] at hrest
      cases hrest
  | hexadecimal hmarked => exact hmarked.not_signedLate hlate

end Literal

open Literal

/-- An integer of a kind is read from a text that is, without the white space around it, the name of
a bound or a numeral within the bounds, and from such a numeral with its sign behind the mark; of
any other text it is said why there is none. So the texts of integers are what is read without a
sign behind the mark. -/
theorem Conversion.read_integer (kind : IntegerKind) (s : List Char) :
    (∀ v, (integer kind).read s = .ok (some v) ↔
      ∃ t n, Text.Stripped s t ∧ (IntegerText kind t n ∨ LateNumeral kind.signed t n) ∧
        kind.Holds n ∧ v = .integer kind n) ∧
    ((∃ v, (integer kind).read s = .ok (some v)) ∨
      ∃ fault, (integer kind).read s = .error (.literal fault)) ∧
    ∀ t n, Text.Stripped s t →
      (IntegerText kind t n ∧ kind.Holds n ↔
        (integer kind).read s = .ok (some (.integer kind n)) ∧ ¬ SignedLate t) := by
  have hread (v : Value) : (integer kind).read s = .ok (some v) ↔
      ∃ n, ((IntegerText kind (Text.trim s) n ∨ LateNumeral kind.signed (Text.trim s) n) ∧
        kind.Holds n) ∧ Value.integer kind n = v := by
    simp only [read, failing_eq_some_iff, readIntegerOf, readTrimmedInteger_eq_ok_iff]
  refine ⟨fun v => ?_, failing_cases _ _, fun t n ht => ?_⟩
  · rw [hread]
    constructor
    · rintro ⟨n, ⟨htext, hholds⟩, rfl⟩
      exact ⟨Text.trim s, n, Text.stripped_trim s, htext, hholds, rfl⟩
    · rintro ⟨t, n, ht, htext, hholds, rfl⟩
      rw [Text.trim_eq_iff.2 ht]
      exact ⟨n, ⟨htext, hholds⟩, rfl⟩
  · rw [hread, Text.trim_eq_iff.2 ht]
    constructor
    · rintro ⟨htext, hholds⟩
      exact ⟨⟨n, ⟨.inl htext, hholds⟩, rfl⟩, htext.not_signedLate⟩
    · rintro ⟨⟨n', ⟨htext, hholds⟩, hn⟩, hlate⟩
      cases hn
      exact ⟨htext.resolve_right fun h => hlate h.signedLate, hholds⟩

namespace Sample

/-- A hexadecimal numeral with its sign in front, between white space. -/
theorem signed_hexadecimal_read :
    IntegerText .i8 "-0x10".toList (-16) ∧ ¬ SignedLate "-0x10".toList ∧
      (Conversion.integer .i8).read " -0x10\n".toList = .ok (some (.integer .i8 (-16))) := by
  have hdigits : Denotes 16 "10".toList 16 := ⟨by decide, [1, 0], rfl, rfl⟩
  have htext : IntegerText .i8 "-0x10".toList (-16) :=
    .hexadecimal (.minus rfl (by decide : "0x".toList ∈ hexMarks) hdigits)
  have hholds : IntegerKind.i8.Holds (-16) := ⟨by decide, by decide⟩
  have hstripped : Text.Stripped " -0x10\n".toList "-0x10".toList := Text.trim_eq_iff.1 rfl
  obtain ⟨-, -, hplain⟩ := Conversion.read_integer .i8 " -0x10\n".toList
  obtain ⟨hread, hlate⟩ := (hplain _ _ hstripped).1 ⟨htext, hholds⟩
  exact ⟨htext, hlate, hread⟩

/-- A sign behind the mark is read, also as the second one. -/
theorem late_signs_read :
    (Conversion.integer .u8).read "0x+10".toList = .ok (some (.integer .u8 16)) ∧
      (∀ n, ¬ IntegerText .u8 "0x+10".toList n) ∧
      (Conversion.integer .i8).read "+0x-10".toList = .ok (some (.integer .i8 (-16))) ∧
      ∀ n, ¬ IntegerText .i8 "+0x-10".toList n := by
  have hplus : SignedLate "0x+10".toList :=
    ⟨[], by decide, "0x".toList, by decide, '+', by decide, "10".toList, rfl⟩
  have hminus : SignedLate "+0x-10".toList :=
    ⟨['+'], by decide, "0x".toList, by decide, '-', by decide, "10".toList, rfl⟩
  refine ⟨rfl, fun n h => h.not_signedLate hplus, rfl, fun n h => h.not_signedLate hminus⟩

end Sample

end LayeredConfig
