import LayeredConfig.Converter.Standard
import LayeredConfig.Proofs.Text.Trimming

/-!
White space around a text that is converted. All conversions but that to texts read a text as it is
without the white space around it, with one exception: quotation marks around a character are seen
only where nothing stands around them.
-/

namespace LayeredConfig

open Text (AllWhite Trimmed trim isWhite)

namespace Literal

def only? : List Char → Option Char
  | [c] => some c
  | _ => none

theorem unquote?_eq_some_iff {s inner : List Char} :
    unquote? s = some inner ↔ s = '\'' :: (inner ++ ['\'']) := by
  constructor
  · intro h
    unfold unquote? at h
    split at h
    · rename_i rest
      split at h
      · rename_i hlast
        obtain ⟨start, rfl⟩ := List.getLast?_eq_some_iff.1 hlast
        rw [List.dropLast_concat] at h
        rw [Option.some.inj h]
      · cases h
    · cases h
  · rintro rfl
    rw [unquote?, if_pos (List.getLast?_concat ..), List.dropLast_concat]

theorem unquote?_surrounded {u w : List Char} (hu : AllWhite u) (hw : AllWhite w)
    (hne : u ++ w ≠ []) (t : List Char) : unquote? (u ++ t ++ w) = none := by
  have hquote : isWhite '\'' = false := by decide
  rw [Option.eq_none_iff_forall_ne_some]
  intro inner hinner
  rw [unquote?_eq_some_iff] at hinner
  rcases u with _ | ⟨c, u⟩
  · rcases List.eq_nil_or_concat w with rfl | ⟨w, c, rfl⟩
    · exact hne rfl
    · rw [List.concat_eq_append] at hw hinner
      have hlast := congrArg List.getLast? hinner
      rw [← List.append_assoc, ← List.cons_append, List.getLast?_concat,
        List.getLast?_concat] at hlast
      have hc := hw c (List.mem_append_right _ (List.mem_singleton_self c))
      rw [Option.some.inj hlast, hquote] at hc
      cases hc
  · have hc := hu c List.mem_cons_self
    rw [(List.cons.inj hinner).1, hquote] at hc
    cases hc

theorem readCharacter_of_unquote? {s : List Char} (h : unquote? s = none ∨ unquote? s = some []) :
    readCharacter s = only? (trim s) := by
  rcases h with h | h
  · rw [readCharacter, h]
    rfl
  · rw [readCharacter, h]
    rfl

theorem readCharacter_cases {t : List Char} (ht : Trimmed t) :
    readCharacter t = only? t ∨ ∃ c, t = ['\'', c, '\''] ∧ readCharacter t = some c := by
  rcases hinner : unquote? t with _ | _ | ⟨c, cs⟩
  · rw [readCharacter_of_unquote? (.inl hinner), ht.trim_eq]
    exact .inl rfl
  · rw [readCharacter_of_unquote? (.inr hinner), ht.trim_eq]
    exact .inl rfl
  · have hread : readCharacter t = only? (c :: cs) := by
      rw [readCharacter, hinner]
      rfl
    rw [hread, unquote?_eq_some_iff.1 hinner]
    rcases cs with _ | ⟨d, cs⟩
    · exact .inr ⟨c, rfl, rfl⟩
    · exact .inl rfl

theorem readCharacter_surrounded {u t w : List Char} (hu : AllWhite u) (ht : Trimmed t)
    (hw : AllWhite w) (hne : u ++ w ≠ []) : readCharacter (u ++ t ++ w) = only? t := by
  rw [readCharacter_of_unquote? (.inl (unquote?_surrounded hu hw hne t)),
    Text.trim_append hu ht hw]

end Literal

open Literal

namespace Conversion

/-- The conversions that do not look at the white space around a text. -/
theorem read_congr_trim {c : Conversion} (htext : c ≠ text) (hcharacter : c ≠ character)
    {s t : List Char} (h : trim s = trim t) : c.read s = c.read t := by
  cases c with
  | text => exact absurd rfl htext
  | character => exact absurd rfl hcharacter
  | boolean => rw [read, read, readBoolean, readBoolean, h]
  | integer kind => rw [read, read, readIntegerOf, readIntegerOf, h]
  | float width => rw [read, read, readFloatOf, readFloatOf, h]
  | path => rw [read, read, readPath, readPath, h]
  | ipAddress format => rw [read, read, readIpAddressOf, readIpAddressOf, h]
  | socketAddress format => rw [read, read, readSocketAddressOf, readSocketAddressOf, h]
  | url format => rw [read, read, readUrlOf, readUrlOf, h]
  | duration => rw [read, read, readDuration, readDuration, h]

/-- White space around a text makes no difference to what a conversion other than that to texts
makes of it, unless the conversion is that to characters and the text is a character in quotation
marks: with white space around it, none is read from it. -/
theorem read_surrounded {c : Conversion} (hc : c ≠ text) {u t w : List Char} (hu : AllWhite u)
    (ht : Trimmed t) (hw : AllWhite w) :
    (c.read (u ++ t ++ w) = c.read t ↔
      ¬ (c = character ∧ u ++ w ≠ [] ∧ ∃ x, t = ['\'', x, '\''])) ∧
    ∀ x, u ++ w ≠ [] → t = ['\'', x, '\''] →
      character.read (u ++ t ++ w) = .ok none ∧ character.read t = .ok (some (.character x)) := by
  have hquoted (x : Char) (hne : u ++ w ≠ []) (hx : t = ['\'', x, '\'']) :
      character.read (u ++ t ++ w) = .ok none ∧
        character.read t = .ok (some (.character x)) := by
    rw [read, readCharacter_surrounded hu ht hw hne, hx]
    exact ⟨rfl, rfl⟩
  refine ⟨⟨?_, fun hplain => ?_⟩, hquoted⟩
  · rintro heq ⟨rfl, hne, x, hx⟩
    obtain ⟨hnone, hsome⟩ := hquoted x hne hx
    rw [hnone, hsome] at heq
    cases heq
  · by_cases hcharacter : c = character
    · subst hcharacter
      by_cases hne : u ++ w = []
      · obtain ⟨rfl, rfl⟩ := List.append_eq_nil_iff.1 hne
        rw [List.nil_append, List.append_nil]
      · rw [read, read, readCharacter_surrounded hu ht hw hne]
        rcases readCharacter_cases ht with hread | ⟨x, hx, -⟩
        · rw [hread]
        · exact absurd ⟨rfl, hne, x, hx⟩ hplain
    · refine read_congr_trim hc hcharacter ?_
      rw [Text.trim_append hu ht hw, ht.trim_eq]

end Conversion

namespace Sample

theorem trimmed_amount : Trimmed "+90 m".toList := ⟨by rintro c ⟨⟩; rfl, by rintro c ⟨⟩; rfl⟩

/-- White space of any kind around a duration is passed over. -/
theorem padded_duration_read :
    AllWhite "\u3000\t".toList ∧ Trimmed "+90 m".toList ∧ AllWhite "\n".toList ∧
      Conversion.duration.read ("\u3000\t".toList ++ "+90 m".toList ++ "\n".toList) =
        .ok (some (.duration 5400000)) := by
  have hu : AllWhite "\u3000\t".toList := by decide
  have hw : AllWhite "\n".toList := by decide
  obtain ⟨hread, -⟩ := Conversion.read_surrounded (c := .duration) nofun hu trimmed_amount hw
  refine ⟨hu, trimmed_amount, hw, (hread.2 ?_).trans rfl⟩
  rintro ⟨⟨⟩, -⟩

/-- A space before the quotation marks hides the character in them. -/
theorem padded_quotation_missed :
    AllWhite " ".toList ∧ Trimmed "'x'".toList ∧
      Conversion.character.read "'x'".toList = .ok (some (.character 'x')) ∧
      Conversion.character.read (" ".toList ++ "'x'".toList ++ []) = .ok none :=
  ⟨by decide, ⟨by rintro c ⟨⟩; rfl, by rintro c ⟨⟩; rfl⟩, rfl, rfl⟩

end Sample

end LayeredConfig
