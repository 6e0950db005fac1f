import LayeredConfig.Proofs.Xml.Elements

/-!
Which texts of a document can be decoded, and what they say. Decoding goes from one reference to the
next and does not look at what it has written, so a text can be decoded (`Decodes`) if and only if
a reference stands behind each `&` in it (`Referenced`). The digits of a number are read like any
natural number, which may have a plus sign: more is taken for a reference than the references
(`Taken`).
-/

namespace LayeredConfig.Format.Xml

open Text (splitFirst? dropPrefix? splitFirst?_self eq_append_of_splitFirst?
  eq_append_of_dropPrefix? dropPrefix?_eq_none_iff forall_of_all)

/-- The number of a character with a plus sign before its digits. -/
inductive SignedReference : List Char → Char → Prop
  | decimal {digits c} : Literal.Denotes 10 digits c.toNat →
      SignedReference ('#' :: '+' :: digits) c
  | hexadecimal {digits c} : Literal.Denotes 16 digits c.toNat →
      SignedReference ('#' :: 'x' :: '+' :: digits) c

/-- What may stand between the signs for a character to be read. -/
def Taken (name : List Char) (c : Char) : Prop :=
  Reference name c ∨ SignedReference name c

theorem SignedReference.characterNamed {name : List Char} {c : Char} (h : SignedReference name c) :
    characterNamed name = some c := by
  cases h with
  | decimal hdigits =>
      rw [characterNamed_sign]
      exact character_eq_some_iff.2 (.inr ⟨_, rfl, hdigits⟩)
  | hexadecimal hdigits =>
      rw [characterNamed_sign]
      exact character_eq_some_iff.2 (.inr ⟨_, rfl, hdigits⟩)

theorem reference_of_characterNamed {name : List Char} {c : Char} (hname : ¬ ['#'] <+: name)
    (h : characterNamed name = some c) : Reference name c := by
  have hdecimal : dropPrefix? ['#'] name = none := dropPrefix?_eq_none_iff.2 hname
  have hhexadecimal : dropPrefix? ['#', 'x'] name = none :=
    dropPrefix?_eq_none_iff.2 fun hleads =>
      hname (List.IsPrefix.trans (List.prefix_append ['#'] ['x']) hleads)
  simp only [Xml.characterNamed, hdecimal, hhexadecimal, Option.bind_none] at h
  split_ifs at h with hamp hlt hgt hquot hapos
  · cases h
    exact hamp ▸ .amp
  · cases h
    exact hlt ▸ .lt
  · cases h
    exact hgt ▸ .gt
  · cases h
    exact hquot ▸ .quot
  · cases h
    exact hapos ▸ .apos

theorem characterNamed_eq_some_iff {name : List Char} {c : Char} :
    characterNamed name = some c ↔ Taken name c := by
  constructor
  · intro h
    by_cases hsign : ['#'] <+: name
    · obtain ⟨digits, rfl⟩ := hsign
      rw [List.singleton_append] at h ⊢
      rw [characterNamed_sign] at h
      cases hdrop : dropPrefix? ['x'] digits with
      | none =>
          rw [hdrop] at h
          obtain hplain | ⟨rest, rfl, hplus⟩ := character_eq_some_iff.1 h
          · exact .inl (.decimal hplain)
          · exact .inr (.decimal hplus)
      | some digits' =>
          rw [hdrop] at h
          obtain rfl := eq_append_of_dropPrefix? hdrop
          obtain hplain | ⟨rest, rfl, hplus⟩ := character_eq_some_iff.1 h
          · exact .inl (.hexadecimal hplain)
          · exact .inr (.hexadecimal hplus)
    · exact .inl (reference_of_characterNamed hsign h)
  · rintro (h | h)
    · exact h.characterNamed
    · exact h.characterNamed

theorem SignedReference.not_mem {name : List Char} {c m : Char} (h : SignedReference name c)
    (hm : m ∈ ['&', ';', '<']) : m ∉ name := by
  have hsigns : ∀ m ∈ ['&', ';', '<'], m ≠ '#' ∧ m ≠ 'x' ∧ m ≠ '+' := forall_of_all (by decide)
  obtain ⟨hnumber, hx, hplus⟩ := hsigns m hm
  cases h with
  | decimal hdigits =>
      exact List.not_mem_cons_of_ne_of_not_mem hnumber
        (List.not_mem_cons_of_ne_of_not_mem hplus (not_mem_digits hdigits (.inl rfl) hm))
  | hexadecimal hdigits =>
      exact List.not_mem_cons_of_ne_of_not_mem hnumber
        (List.not_mem_cons_of_ne_of_not_mem hx
          (List.not_mem_cons_of_ne_of_not_mem hplus (not_mem_digits hdigits (.inr rfl) hm)))

theorem Taken.not_mem {name : List Char} {c m : Char} (h : Taken name c)
    (hm : m ∈ ['&', ';', '<']) : m ∉ name :=
  h.elim (fun h => h.not_mem hm) fun h => h.not_mem hm

def BehindEach (p : List Char → Prop) (raw : List Char) : Prop :=
  ∀ after, '&' :: after <:+ raw → p after

/-- Behind each `&` of a text, one of the names and the sign that ends it stand. -/
def Referenced (names : List Char → Char → Prop) (raw : List Char) : Prop :=
  BehindEach (fun after => ∃ name c rest, names name c ∧ after = name ++ ';' :: rest) raw

/-- No number in a reference of a text starts with a plus sign. -/
def Unsigned (raw : List Char) : Prop :=
  BehindEach (fun after => ¬ "#+".toList <+: after ∧ ¬ "#x+".toList <+: after) raw

theorem behindEach_nil (p : List Char → Prop) : BehindEach p [] :=
  fun after h => absurd (List.suffix_nil.1 h) (List.cons_ne_nil '&' after)

theorem behindEach_cons {p : List Char → Prop} {c : Char} {raw : List Char} :
    BehindEach p (c :: raw) ↔ (c = '&' → p raw) ∧ BehindEach p raw := by
  constructor
  · intro h
    refine ⟨?_, fun after hafter => h after (hafter.trans (List.suffix_cons c raw))⟩
    rintro rfl
    exact h raw List.suffix_rfl
  · rintro ⟨hfirst, hlater⟩ after hafter
    rcases List.suffix_cons_iff.1 hafter with heq | hsuffix
    · obtain ⟨rfl, rfl⟩ := List.cons.inj heq
      exact hfirst rfl
    · exact hlater after hsuffix

theorem behindEach_append {p : List Char → Prop} {a raw : List Char} (ha : '&' ∉ a) :
    BehindEach p (a ++ raw) ↔ BehindEach p raw := by
  induction a with
  | nil => rfl
  | cons c a ih =>
      rw [List.cons_append, behindEach_cons, ih (List.not_mem_of_not_mem_cons ha)]
      exact and_iff_right fun hc => absurd hc (List.ne_of_not_mem_cons ha).symm

theorem behindEach_reference {p : List Char → Prop} {name raw : List Char} (hname : '&' ∉ name) :
    BehindEach p ('&' :: (name ++ ';' :: raw)) ↔ p (name ++ ';' :: raw) ∧ BehindEach p raw := by
  rw [behindEach_cons, behindEach_append hname, behindEach_cons]
  simp

/-- A text is decoded: each reference is replaced by its character, and all else is copied. -/
inductive Decodes (names : List Char → Char → Prop) : List Char → List Char → Prop
  | nil : Decodes names [] []
  | plain {c raw text} : c ≠ '&' → Decodes names raw text → Decodes names (c :: raw) (c :: text)
  | reference {name c raw text} : names name c → Decodes names raw text →
      Decodes names ('&' :: (name ++ ';' :: raw)) (c :: text)

/-- What holds of a text if it holds of what is left behind its first reference holds of all. -/
theorem reference_induction {motive : List Char → Prop} (nil : motive [])
    (plain : ∀ c raw, c ≠ '&' → motive raw → motive (c :: raw))
    (reference : ∀ after, (∀ name raw, after = name ++ ';' :: raw → motive raw) →
      motive ('&' :: after)) (raw : List Char) : motive raw := by
  induction hlength : raw.length using Nat.strong_induction_on generalizing raw with
  | _ n ih =>
    subst hlength
    cases raw with
    | nil => exact nil
    | cons c raw =>
        by_cases hc : c = '&'
        · subst hc
          refine reference raw fun name rest hraw => ih rest.length ?_ rest rfl
          simp only [hraw, List.length_cons, List.length_append]
          omega
        · exact plain c raw hc (ih raw.length (Nat.lt_succ_self _) raw rfl)

section Decodes

variable {names : List Char → Char → Prop} {raw text : List Char}

theorem decodes_iff_referenced (hnames : ∀ name c, names name c → '&' ∉ name) :
    (∃ text, Decodes names raw text) ↔ Referenced names raw := by
  constructor
  · rintro ⟨text, h⟩
    induction h with
    | nil => exact behindEach_nil _
    | plain hc _ ih => exact behindEach_cons.2 ⟨fun heq => absurd heq hc, ih⟩
    | reference hname _ ih =>
        exact (behindEach_reference (hnames _ _ hname)).2 ⟨⟨_, _, _, hname, rfl⟩, ih⟩
  · intro h
    induction raw using reference_induction with
    | nil => exact ⟨[], .nil⟩
    | plain c raw hc ih =>
        obtain ⟨text, htext⟩ := ih (behindEach_cons.1 h).2
        exact ⟨c :: text, .plain hc htext⟩
    | reference after ih =>
        obtain ⟨name, c, rest, hname, rfl⟩ := (behindEach_cons.1 h).1 rfl
        obtain ⟨text, htext⟩ := ih name rest rfl
          ((behindEach_reference (hnames name c hname)).1 h).2
        exact ⟨c :: text, .reference hname htext⟩

theorem unescape_eq_ok_iff : unescape raw = .ok text ↔ Decodes Taken raw text := by
  constructor
  · intro h
    induction raw using reference_induction generalizing text with
    | nil =>
        rw [unescape_of_splitFirst?_none rfl] at h
        cases h
        exact .nil
    | plain c raw hc ih =>
        rw [unescape_cons hc] at h
        obtain ⟨text', htext, rfl⟩ := exists_of_map_ok h
        exact .plain hc (ih htext)
    | reference after ih =>
        have hamp : splitFirst? ['&'] ('&' :: after) = some ([], after) :=
          splitFirst?_self after (by decide)
        rw [unescape_eq, hamp] at h
        rcases hsemi : splitFirst? [';'] after with _ | ⟨name, rest⟩
        · simp only [hsemi, reduceCtorEq] at h
        rcases hname : characterNamed name with _ | c
        · simp only [hsemi, hname, reduceCtorEq] at h
        simp only [hsemi, hname] at h
        obtain ⟨text', htext, rfl⟩ := exists_of_map_ok h
        obtain rfl : after = name ++ ';' :: rest := by simpa using eq_append_of_splitFirst? hsemi
        exact .reference (characterNamed_eq_some_iff.1 hname) (ih name rest rfl htext)
  · intro h
    induction h with
    | nil => exact unescape_of_splitFirst?_none rfl
    | plain hc _ ih =>
        rw [unescape_cons hc, ih]
        rfl
    | reference hname _ ih =>
        rw [unescape_reference (characterNamed_eq_some_iff.2 hname) (hname.not_mem (by decide)), ih]
        rfl

theorem exists_unescape_iff : (∃ text, unescape raw = .ok text) ↔ Referenced Taken raw := by
  rw [← decodes_iff_referenced fun name c hname => hname.not_mem (by decide)]
  exact exists_congr fun text => unescape_eq_ok_iff

end Decodes

theorem Reference.unsigned {name : List Char} {c : Char} (h : Reference name c) (rest : List Char) :
    ¬ "#+".toList <+: name ++ rest ∧ ¬ "#x+".toList <+: name ++ rest := by
  have hhead {radix n : Nat} {digits : List Char} (hdigits : Literal.Denotes radix digits n)
      {m : Char} {ms : List Char} (hm : Literal.digitValue? radix m = none) :
      ¬ m :: ms <+: digits ++ rest := by
    obtain ⟨d, digits, rfl⟩ := List.exists_cons_of_ne_nil hdigits.1
    intro hleads
    obtain ⟨rfl, -⟩ := List.cons_prefix_cons.1 hleads
    exact hdigits.digit List.mem_cons_self hm
  cases h with
  | amp => simp
  | lt => simp
  | gt => simp
  | quot => simp
  | apos => simp
  | decimal hdigits =>
      exact ⟨fun hleads => hhead hdigits rfl (List.cons_prefix_cons.1 hleads).2,
        fun hleads => hhead hdigits rfl (List.cons_prefix_cons.1 hleads).2⟩
  | hexadecimal hdigits =>
      refine ⟨fun hleads => ?_, fun hleads => ?_⟩
      · exact absurd (List.cons_prefix_cons.1 (List.cons_prefix_cons.1 hleads).2).1 (by decide)
      · exact hhead hdigits rfl (List.cons_prefix_cons.1 (List.cons_prefix_cons.1 hleads).2).2

theorem SignedReference.signed {name : List Char} {c : Char} (h : SignedReference name c)
    (rest : List Char) : "#+".toList <+: name ++ rest ∨ "#x+".toList <+: name ++ rest := by
  cases h with
  | decimal => exact .inl (List.prefix_append "#+".toList _)
  | hexadecimal => exact .inr (List.prefix_append "#x+".toList _)

theorem decodes_reference_iff {raw text : List Char} :
    Decodes Reference raw text ↔ Decodes Taken raw text ∧ Unsigned raw := by
  constructor
  · intro h
    induction h with
    | nil => exact ⟨.nil, behindEach_nil _⟩
    | plain hc _ ih =>
        exact ⟨.plain hc ih.1, behindEach_cons.2 ⟨fun heq => absurd heq hc, ih.2⟩⟩
    | reference hname _ ih =>
        have htaken : Taken _ _ := .inl hname
        exact ⟨.reference htaken ih.1,
          (behindEach_reference (htaken.not_mem (by decide))).2 ⟨hname.unsigned _, ih.2⟩⟩
  · rintro ⟨h, hunsigned⟩
    induction h with
    | nil => exact .nil
    | plain hc _ ih => exact .plain hc (ih (behindEach_cons.1 hunsigned).2)
    | @reference name c raw text hname _ ih =>
        obtain ⟨hfirst, hlater⟩ :=
          (behindEach_reference (hname.not_mem (by decide))).1 hunsigned
        rcases hname with hname | hname
        · exact .reference hname (ih hlater)
        · rcases hname.signed (';' :: raw) with hplus | hplus
          · exact absurd hplus hfirst.1
          · exact absurd hplus hfirst.2

theorem referenced_reference_iff {raw : List Char} :
    Referenced Reference raw ↔ Referenced Taken raw ∧ Unsigned raw := by
  have htaken (name : List Char) (c : Char) (hname : Taken name c) : '&' ∉ name :=
    hname.not_mem (by decide)
  rw [← decodes_iff_referenced htaken,
    ← decodes_iff_referenced fun name c hname => htaken name c (.inl hname), ← exists_and_right]
  exact exists_congr fun text => decodes_reference_iff

end LayeredConfig.Format.Xml
