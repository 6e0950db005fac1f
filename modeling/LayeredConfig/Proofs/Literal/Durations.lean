import LayeredConfig.Converter.Standard
import LayeredConfig.Proofs.Literal.Integer
import LayeredConfig.Proofs.Text.Trimming

/-!
The texts of durations: a number and a unit. One unit ends with another one, but no unit ends with
what can stand before a unit, so the first unit that a text is found to end with is the one that was
written.
-/

namespace LayeredConfig

namespace Literal

open Text (AllWhite Trimmed Stripped isWhite trim)

def durationUnits : List (List Char × Nat) :=
  [([], 1), ("ms".toList, 1), ("s".toList, 1000), ("m".toList, 60000), ("h".toList, 3600000)]

/-- The texts of a number of units, each of so many milliseconds: digits, after a plus sign or none,
and the unit, after white space or none. -/
inductive DurationText : List Char → Nat → Nat → Prop
  | intro {lead digits space unit n milliseconds} : lead ∈ [[], ['+']] → Denotes 10 digits n →
      AllWhite space → (unit, milliseconds) ∈ durationUnits →
      DurationText (lead ++ digits ++ space ++ unit) n milliseconds

theorem toNat_of_digitValue? {c : Char} (h : digitValue? 10 c ≠ none) :
    48 ≤ c.toNat ∧ c.toNat ≤ 57 := by
  by_cases hdigit : '0' ≤ c ∧ c ≤ '9'
  · exact hdigit
  · refine absurd ?_ h
    simp only [digitValue?, hdigit, if_false]
    split_ifs <;> first | rfl | omega

theorem isWhite_of_digitValue? {c : Char} (h : digitValue? 10 c ≠ none) : isWhite c = false := by
  have hall : ∀ n < 58, 48 ≤ n → Text.inRanges Text.whiteRanges n = false := by decide
  obtain ⟨hlow, hhigh⟩ := toNat_of_digitValue? h
  exact hall c.toNat (Nat.lt_succ_of_le hhigh) hlow

theorem dropSuffix?_eq_some_iff {suffix s a : List Char} :
    dropSuffix? suffix s = some a ↔ s = a ++ suffix := by
  rw [dropSuffix?, Option.map_eq_some_iff]
  constructor
  · rintro ⟨r, hr, rfl⟩
    rw [← List.reverse_inj, Text.eq_append_of_dropPrefix? hr, List.reverse_append,
      List.reverse_reverse]
  · rintro rfl
    refine ⟨a.reverse, ?_, List.reverse_reverse a⟩
    rw [List.reverse_append, Text.dropPrefix?_append]

theorem dropSuffix?_concat (suffix s : List Char) (c d : Char) :
    dropSuffix? (suffix ++ [c]) (s ++ [d]) = if c = d then dropSuffix? suffix s else none := by
  rw [dropSuffix?, dropSuffix?, List.reverse_append, List.reverse_append]
  change (if c = d then Text.dropPrefix? suffix.reverse s.reverse else none).map _ = _
  split_ifs <;> rfl

theorem dropSuffix?_of_getLast? {s : List Char} {c : Char} (h : c ∉ s.getLast?)
    (suffix : List Char) : dropSuffix? (suffix ++ [c]) s = none := by
  rcases List.eq_nil_or_concat s with rfl | ⟨s, d, rfl⟩
  · rw [dropSuffix?, List.reverse_append]
    rfl
  · rw [List.concat_eq_append] at h ⊢
    rw [dropSuffix?_concat, if_neg]
    rintro rfl
    exact h (List.getLast?_concat ..)

theorem exists_unit (s : List Char) :
    ∃ unit, s = (splitUnit s).1 ++ unit ∧ (unit, (splitUnit s).2) ∈ durationUnits := by
  unfold splitUnit
  split
  · rename_i hms
    exact ⟨"ms".toList, dropSuffix?_eq_some_iff.1 hms, by simp [durationUnits]⟩
  · rename_i hs
    exact ⟨"s".toList, dropSuffix?_eq_some_iff.1 hs, by simp [durationUnits]⟩
  · rename_i hm
    exact ⟨"m".toList, dropSuffix?_eq_some_iff.1 hm, by simp [durationUnits]⟩
  · rename_i hh
    exact ⟨"h".toList, dropSuffix?_eq_some_iff.1 hh, by simp [durationUnits]⟩
  · exact ⟨[], (List.append_nil s).symm, by simp [durationUnits]⟩

theorem splitUnit_append {s unit : List Char} {milliseconds : Nat}
    (hs : ∀ c ∈ s.getLast?, c ∉ ['m', 's', 'h']) (hunit : (unit, milliseconds) ∈ durationUnits) :
    splitUnit (s ++ unit) = (s, milliseconds) := by
  have hself (suffix : List Char) : dropSuffix? suffix (s ++ suffix) = some s :=
    dropSuffix?_eq_some_iff.2 rfl
  have hlast {c : Char} (hc : c ∈ ['m', 's', 'h']) (suffix : List Char) :
      dropSuffix? (suffix ++ [c]) s = none :=
    dropSuffix?_of_getLast? (fun hmem => hs c hmem hc) suffix
  have hother {c d : Char} (hne : c ≠ d) (suffix : List Char) :
      dropSuffix? (suffix ++ [c]) (s ++ [d]) = none := by
    rw [dropSuffix?_concat, if_neg hne]
  simp only [durationUnits, List.mem_cons, Prod.mk.injEq, List.not_mem_nil, or_false] at hunit
  rcases hunit with ⟨rfl, rfl⟩ | ⟨rfl, rfl⟩ | ⟨rfl, rfl⟩ | ⟨rfl, rfl⟩ | ⟨rfl, rfl⟩
  · have hms : dropSuffix? ['m', 's'] s = none := hlast (by decide) ['m']
    have hsecond : dropSuffix? ['s'] s = none := hlast (by decide) []
    have hminute : dropSuffix? ['m'] s = none := hlast (by decide) []
    have hhour : dropSuffix? ['h'] s = none := hlast (by decide) []
    rw [List.append_nil, splitUnit, hms, hsecond, hminute, hhour]
  · have hms : dropSuffix? ['m', 's'] (s ++ "ms".toList) = some s := hself _
    rw [splitUnit, hms]
  · have hms : dropSuffix? ['m', 's'] (s ++ "s".toList) = none :=
      (dropSuffix?_concat ['m'] s 's' 's').trans (hlast (by decide) [])
    have hsecond : dropSuffix? ['s'] (s ++ "s".toList) = some s := hself _
    rw [splitUnit, hms, hsecond]
  · have hms : dropSuffix? ['m', 's'] (s ++ "m".toList) = none := hother (by decide) ['m']
    have hsecond : dropSuffix? ['s'] (s ++ "m".toList) = none := hother (by decide) []
    have hminute : dropSuffix? ['m'] (s ++ "m".toList) = some s := hself _
    rw [splitUnit, hms, hsecond, hminute]
  · have hms : dropSuffix? ['m', 's'] (s ++ "h".toList) = none := hother (by decide) ['m']
    have hsecond : dropSuffix? ['s'] (s ++ "h".toList) = none := hother (by decide) []
    have hminute : dropSuffix? ['m'] (s ++ "h".toList) = none := hother (by decide) []
    have hhour : dropSuffix? ['h'] (s ++ "h".toList) = some s := hself _
    rw [splitUnit, hms, hsecond, hminute, hhour]

theorem exists_lead_iff {s : List Char} {n : Nat} :
    (Denotes 10 s n ∨ ∃ t, s = '+' :: t ∧ Denotes 10 t n) ↔
      ∃ lead ∈ [[], ['+']], ∃ digits, s = lead ++ digits ∧ Denotes 10 digits n := by
  simp

theorem getLast?_lead {lead digits : List Char} {n : Nat} (h : Denotes 10 digits n) :
    (lead ++ digits).getLast? = digits.getLast? := by
  obtain ⟨c, hc⟩ := Option.isSome_iff_exists.1 (List.getLast?_isSome.2 h.1)
  rw [List.getLast?_append, hc]
  rfl

theorem trimmed_lead {lead digits : List Char} {n : Nat} (hlead : lead ∈ [[], ['+']])
    (h : Denotes 10 digits n) : Trimmed (lead ++ digits) := by
  constructor
  · intro c hc
    simp only [List.mem_cons, List.not_mem_nil, or_false] at hlead
    rcases hlead with rfl | rfl
    · exact isWhite_of_digitValue? (h.digit (List.mem_of_mem_head? hc))
    · cases hc
      decide
  · intro c hc
    rw [getLast?_lead h] at hc
    exact isWhite_of_digitValue? (h.digit (List.mem_of_getLast? hc))

theorem getLast?_amount {lead digits space : List Char} {n : Nat} (h : Denotes 10 digits n)
    (hspace : AllWhite space) :
    ∀ c ∈ (lead ++ digits ++ space).getLast?, c ∉ ['m', 's', 'h'] := by
  have hdigit : ∀ c ∈ ['m', 's', 'h'], digitValue? 10 c = none := Text.forall_of_all (by decide)
  have hwhite : ∀ c ∈ ['m', 's', 'h'], isWhite c = false := Text.forall_of_all (by decide)
  intro c hc hletter
  rcases List.eq_nil_or_concat space with rfl | ⟨space, d, rfl⟩
  · rw [List.append_nil, getLast?_lead h] at hc
    exact h.digit (List.mem_of_getLast? hc) (hdigit c hletter)
  · rw [List.concat_eq_append] at hspace hc
    rw [← List.append_assoc, List.getLast?_concat] at hc
    cases hc
    have hwhite' : isWhite c = true :=
      hspace c (List.mem_append_right _ (List.mem_singleton_self c))
    rw [hwhite c hletter] at hwhite'
    cases hwhite'

theorem DurationText.split {t : List Char} {n milliseconds : Nat}
    (h : DurationText t n milliseconds) :
    (splitUnit t).2 = milliseconds ∧
      ∃ lead ∈ [[], ['+']], ∃ digits, trim (splitUnit t).1 = lead ++ digits ∧
        Denotes 10 digits n := by
  obtain ⟨hlead, hdigits, hspace, hunit⟩ := h
  rw [splitUnit_append (getLast?_amount hdigits hspace) hunit]
  refine ⟨rfl, _, hlead, _, ?_, hdigits⟩
  exact Text.trim_append .nil (trimmed_lead hlead hdigits) hspace

theorem durationText_of_trim {t lead digits : List Char} {n : Nat} (ht : Trimmed t)
    (hlead : lead ∈ [[], ['+']]) (htrim : trim (splitUnit t).1 = lead ++ digits)
    (hdigits : Denotes 10 digits n) : DurationText t n (splitUnit t).2 := by
  obtain ⟨unit, hsplit, hunit⟩ := exists_unit t
  obtain ⟨-, u, w, hu, hw, hamount⟩ := Text.trim_eq_iff.1 htrim
  have hu' : u = [] := by
    rcases u with _ | ⟨c, u⟩
    · rfl
    · have hfirst : isWhite c = false := ht.first c (by rw [hsplit, hamount]; rfl)
      rw [hu c List.mem_cons_self] at hfirst
      cases hfirst
  rw [hamount, hu', List.nil_append] at hsplit
  have htext := DurationText.intro hlead hdigits hw hunit
  rwa [← hsplit] at htext

theorem readNatural_amount_iff {t : List Char} (ht : Trimmed t) {n : Nat} :
    readNatural 10 durationLimit (trim (splitUnit t).1) = .ok n ↔
      DurationText t n (splitUnit t).2 ∧ n ≤ durationLimit := by
  rw [readNatural_eq_ok_iff, exists_lead_iff]
  constructor
  · rintro ⟨⟨lead, hlead, digits, htrim, hdigits⟩, hbound⟩
    exact ⟨durationText_of_trim ht hlead htrim hdigits, hbound⟩
  · rintro ⟨htext, hbound⟩
    exact ⟨htext.split.2, hbound⟩

theorem readDuration_eq (s : List Char) :
    readDuration s =
      readNatural 10 durationLimit (trim (splitUnit (trim s)).1) >>= fun n =>
        if n * (splitUnit (trim s)).2 ≤ durationLimit then .ok (n * (splitUnit (trim s)).2)
        else .error (.durationOverflow (String.ofList (trim s))) := rfl

/-- A duration is read from its texts, if the number and the duration itself keep within the
limit. -/
theorem readDuration_eq_ok_iff {s : List Char} {total : Nat} :
    readDuration s = .ok total ↔
      ∃ n milliseconds, DurationText (trim s) n milliseconds ∧ n ≤ durationLimit ∧
        n * milliseconds ≤ durationLimit ∧ n * milliseconds = total := by
  have hamount (n : Nat) := readNatural_amount_iff (Text.stripped_trim s).trimmed (n := n)
  rw [readDuration_eq]
  constructor
  · intro h
    cases hread : readNatural 10 durationLimit (trim (splitUnit (trim s)).1) with
    | error fault =>
        rw [hread] at h
        cases h
    | ok n =>
        rw [hread] at h
        obtain ⟨htext, hbound⟩ := (hamount n).1 hread
        change (if n * (splitUnit (trim s)).2 ≤ durationLimit then _ else _) = _ at h
        split at h
        · rename_i hproduct
          exact ⟨n, _, htext, hbound, hproduct, Except.ok.inj h⟩
        · cases h
  · rintro ⟨n, milliseconds, htext, hbound, hproduct, rfl⟩
    obtain ⟨rfl, -⟩ := htext.split
    rw [(hamount n).2 ⟨htext, hbound⟩]
    exact if_pos hproduct

theorem le_durationLimit_iff {n : Nat} : n ≤ durationLimit ↔ n < 2 ^ 64 := by
  have hlimit : durationLimit = 2 ^ 64 - 1 := by decide
  omega

end Literal

open Literal

/-- A duration is read from a text that is, without the white space around it, a number and a unit,
if neither the number nor its milliseconds reach `2 ^ 64`; it has exactly these milliseconds. Of any
other text it is said why there is none. -/
theorem Conversion.read_duration (s : List Char) :
    (∀ v, duration.read s = .ok (some v) ↔
      ∃ t n milliseconds, Text.Stripped s t ∧ DurationText t n milliseconds ∧ n < 2 ^ 64 ∧
        n * milliseconds < 2 ^ 64 ∧ v = .duration (n * milliseconds)) ∧
    ((∃ v, duration.read s = .ok (some v)) ∨
      ∃ fault, duration.read s = .error (.literal fault)) := by
  refine ⟨fun v => ?_, failing_cases _ _⟩
  simp only [read, failing_eq_some_iff, readDuration_eq_ok_iff, le_durationLimit_iff]
  constructor
  · rintro ⟨-, ⟨n, milliseconds, htext, hbound, hproduct, rfl⟩, rfl⟩
    exact ⟨_, n, milliseconds, Text.stripped_trim s, htext, hbound, hproduct, rfl⟩
  · rintro ⟨t, n, milliseconds, ht, htext, hbound, hproduct, rfl⟩
    rw [Text.trim_eq_iff.2 ht]
    exact ⟨_, ⟨n, milliseconds, htext, hbound, hproduct, rfl⟩, rfl⟩

example : Conversion.duration.read "\t+90 m ".toList = .ok (some (.duration 5400000)) := rfl

end LayeredConfig
