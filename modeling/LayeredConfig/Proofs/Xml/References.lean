import LayeredConfig.Proofs.Xml.RoundTrip

/-!
Escaped texts: characters, and references to characters by a name or a number. A text is read from
any of its escaped forms, and markup that follows an escaped form is read as a part of the text.
-/

namespace LayeredConfig.Format.Xml

open Text (splitFirst? dropPrefix? dropPrefix?_of_ne splitFirst?_cons splitFirst?_self
  splitFirst?_append forall_of_all)

/-- What stands between the signs of a reference to a character: one of five names, or the number of
the character in decimal or hexadecimal digits. -/
inductive Reference : List Char → Char → Prop
  | amp : Reference "amp".toList '&'
  | lt : Reference "lt".toList '<'
  | gt : Reference "gt".toList '>'
  | quot : Reference "quot".toList '"'
  | apos : Reference "apos".toList '\''
  | decimal {digits c} : Literal.Denotes 10 digits c.toNat → Reference ('#' :: digits) c
  | hexadecimal {digits c} : Literal.Denotes 16 digits c.toNat → Reference ('#' :: 'x' :: digits) c

/-- The escaped forms of a text. -/
inductive Escaped : List Char → List Char → Prop
  | nil : Escaped [] []
  | plain {c raw text} : c ≠ '&' → c ≠ '<' → Escaped raw text → Escaped (c :: raw) (c :: text)
  | reference {name c raw text} : Reference name c → Escaped raw text →
      Escaped ('&' :: (name ++ ';' :: raw)) (c :: text)

theorem toNat_le (c : Char) : c.toNat ≤ 0xFFFFFFFF := by
  have h : c.toNat.isValidChar := c.valid
  rcases h with h | ⟨-, h⟩
  · omega
  · omega

theorem ofNat_toNat_of_valid (c : Char) :
    (if c.toNat.isValidChar then some (Char.ofNat c.toNat) else none) = some c := by
  have hvalid : c.toNat.isValidChar := c.valid
  rw [if_pos hvalid, Char.ofNat_toNat]

/-- A number, which may have a plus sign, names the character that it is the number of. -/
theorem character_eq_some_iff {radix : Nat} {digits : List Char} {c : Char} :
    ((Literal.readNatural radix 0xFFFFFFFF digits).toOption.bind fun n =>
        if n.isValidChar then some (Char.ofNat n) else none) = some c ↔
      Literal.Denotes radix digits c.toNat ∨
        ∃ rest, digits = '+' :: rest ∧ Literal.Denotes radix rest c.toNat := by
  constructor
  · intro h
    obtain ⟨n, hread, hchar⟩ := Option.bind_eq_some_iff.1 h
    obtain ⟨hvalid, hc⟩ := Option.ite_none_right_eq_some.1 hchar
    have hn : c.toNat = n := by
      rw [← Option.some.inj hc, Char.ofNat, dif_pos hvalid]
      exact UInt32.toNat_ofNatLT
    cases hnatural : Literal.readNatural radix 0xFFFFFFFF digits with
    | error fault =>
        rw [hnatural] at hread
        cases hread
    | ok n' =>
        rw [hnatural] at hread
        obtain rfl := Option.some.inj hread
        rw [hn]
        exact (Literal.readNatural_eq_ok_iff.1 hnatural).1
  · intro h
    rw [Literal.readNatural_eq_ok_iff.2 ⟨h, toNat_le c⟩]
    exact ofNat_toNat_of_valid c

theorem Reference.characterNamed {name : List Char} {c : Char} (h : Reference name c) :
    characterNamed name = some c := by
  cases h with
  | amp => rfl
  | lt => rfl
  | gt => rfl
  | quot => rfl
  | apos => rfl
  | @decimal digits c hdigits =>
      obtain ⟨d, rest, rfl⟩ := List.exists_cons_of_ne_nil hdigits.1
      have hd : 'x' ≠ d := by
        rintro rfl
        exact hdigits.digit List.mem_cons_self rfl
      rw [characterNamed_sign, dropPrefix?_of_ne hd]
      exact character_eq_some_iff.2 (.inl hdigits)
  | @hexadecimal digits c hdigits =>
      rw [characterNamed_sign]
      exact character_eq_some_iff.2 (.inl hdigits)

theorem not_mem_digits {radix n : Nat} {digits : List Char} {m : Char}
    (h : Literal.Denotes radix digits n) (hradix : radix = 10 ∨ radix = 16)
    (hm : m ∈ ['&', ';', '<']) : m ∉ digits := by
  have hsigns : ∀ m ∈ ['&', ';', '<'], Literal.digitValue? 10 m = none ∧
      Literal.digitValue? 16 m = none := forall_of_all (by decide)
  intro hmem
  rcases hradix with rfl | rfl
  · exact h.digit hmem (hsigns m hm).1
  · exact h.digit hmem (hsigns m hm).2

theorem Reference.not_mem {name : List Char} {c m : Char} (h : Reference name c)
    (hm : m ∈ ['&', ';', '<']) : m ∉ name := by
  have hsigns : ∀ m ∈ ['&', ';', '<'], m ≠ '#' ∧ m ≠ 'x' ∧
      ∀ name ∈ ["amp", "lt", "gt", "quot", "apos"], m ∉ name.toList := forall_of_all (by decide)
  obtain ⟨hnumber, hx, hnames⟩ := hsigns m hm
  cases h with
  | amp => exact hnames "amp" (by decide)
  | lt => exact hnames "lt" (by decide)
  | gt => exact hnames "gt" (by decide)
  | quot => exact hnames "quot" (by decide)
  | apos => exact hnames "apos" (by decide)
  | decimal hdigits =>
      exact List.not_mem_cons_of_ne_of_not_mem hnumber (not_mem_digits hdigits (.inl rfl) hm)
  | hexadecimal hdigits =>
      exact List.not_mem_cons_of_ne_of_not_mem hnumber
        (List.not_mem_cons_of_ne_of_not_mem hx (not_mem_digits hdigits (.inr rfl) hm))

theorem unescape_cons {c : Char} (h : c ≠ '&') (s : List Char) :
    unescape (c :: s) = (c :: ·) <$> unescape s := by
  rw [unescape_eq (c :: s), unescape_eq s,
    splitFirst?_cons (dropPrefix?_of_ne h.symm [] s)]
  cases splitFirst? ['&'] s with
  | none => rfl
  | some found =>
      obtain ⟨before, after⟩ := found
      simp only [Option.map_some]
      cases splitFirst? [';'] after with
      | none => rfl
      | some found' =>
          obtain ⟨name, rest⟩ := found'
          dsimp only
          cases characterNamed name with
          | none => rfl
          | some d => simp only [Functor.map_map, List.cons_append]

theorem unescape_reference {name : List Char} {c : Char} (hname : characterNamed name = some c)
    (hclean : ';' ∉ name) (s : List Char) :
    unescape ('&' :: (name ++ ';' :: s)) = (c :: ·) <$> unescape s := by
  have hamp : splitFirst? ['&'] ('&' :: (name ++ ';' :: s)) = some ([], name ++ ';' :: s) :=
    splitFirst?_self _ (by decide)
  exact unescape_of_splitFirst? hamp (splitFirst?_append hclean [] s) hname

namespace Escaped

variable {raw text : List Char}

theorem not_mem (h : Escaped raw text) : '<' ∉ raw := by
  induction h with
  | nil => exact List.not_mem_nil
  | plain _ hlt _ ih => exact List.not_mem_cons_of_ne_of_not_mem (Ne.symm hlt) ih
  | reference hname _ ih =>
      refine List.not_mem_cons_of_ne_of_not_mem (by decide)
        (List.not_mem_append (hname.not_mem (by decide)) ?_)
      exact List.not_mem_cons_of_ne_of_not_mem (by decide) ih

theorem unescape_append (h : Escaped raw text) (s : List Char) :
    unescape (raw ++ s) = (text ++ ·) <$> unescape s := by
  induction h with
  | nil => exact (id_map (unescape s)).symm
  | plain hamp _ _ ih =>
      rw [List.cons_append, unescape_cons hamp, ih]
      simp only [Functor.map_map, List.cons_append]
  | reference hname _ ih =>
      rw [List.cons_append, List.append_assoc, List.cons_append,
        unescape_reference hname.characterNamed (hname.not_mem (by decide)), ih]
      simp only [Functor.map_map, List.cons_append]

theorem unescape_raw (h : Escaped raw text) : unescape raw = .ok text := by
  have hend := h.unescape_append []
  rw [List.append_nil] at hend
  rw [hend, unescape_of_splitFirst?_none rfl]
  exact congrArg Except.ok (List.append_nil text)

theorem ne_of_unescape_markup (h : Escaped raw text) {s value : List Char}
    (hvalue : unescape (raw ++ '<' :: s) = .ok value) : value ≠ text := by
  rw [h.unescape_append, unescape_cons (by decide)] at hvalue
  cases hrest : unescape s with
  | error fault =>
      rw [hrest] at hvalue
      cases hvalue
  | ok rest =>
      rw [hrest] at hvalue
      cases hvalue
      exact fun heq => List.cons_ne_nil '<' rest (List.append_right_eq_self.1 heq)

end Escaped

theorem escaped_of_not_mem {text : List Char} (h : '&' ∉ text ∧ '<' ∉ text) :
    Escaped text text := by
  induction text with
  | nil => exact .nil
  | cons c text ih =>
      obtain ⟨hamp, hlt⟩ := h
      refine .plain (Ne.symm (List.ne_of_not_mem_cons hamp))
        (Ne.symm (List.ne_of_not_mem_cons hlt)) ?_
      exact ih ⟨List.not_mem_of_not_mem_cons hamp, List.not_mem_of_not_mem_cons hlt⟩

end LayeredConfig.Format.Xml
