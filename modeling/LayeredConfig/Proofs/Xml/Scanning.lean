import LayeredConfig.Proofs.Xml.Decoding

/-!
The entries that stand in a document, before their texts are decoded. The scan of a body goes from
one of them to the next (`Next`), whatever their texts say; a document is read if every text of
every entry can be decoded, and fails with the first one that cannot.
-/

namespace LayeredConfig.Format.Xml

open Text (splitFirst?)

/-- The texts of an entry as they are written. -/
structure RawEntry where
  key : List Char
  value : List Char

namespace RawEntry

def decode (e : RawEntry) : Except MarkupFault (String × String) := do
  let key ← unescape e.key
  let value ← unescape e.value
  return (String.ofList key, String.ofList value)

def DecodedAs (e : RawEntry) (entry : String × String) : Prop :=
  Decodes Taken e.key entry.1.toList ∧ Decodes Taken e.value entry.2.toList

theorem decode_eq_ok_iff {e : RawEntry} {entry : String × String} :
    e.decode = .ok entry ↔ e.DecodedAs entry := by
  constructor
  · intro h
    obtain ⟨key, hkey, h⟩ := exists_of_bind_ok h
    obtain ⟨value, hvalue, h⟩ := exists_of_bind_ok h
    cases h
    refine ⟨unescape_eq_ok_iff.1 ?_, unescape_eq_ok_iff.1 ?_⟩
    · rw [hkey, String.toList_ofList]
    · rw [hvalue, String.toList_ofList]
  · rintro ⟨hkey, hvalue⟩
    rw [decode, unescape_eq_ok_iff.2 hkey, unescape_eq_ok_iff.2 hvalue]
    change Except.ok (String.ofList entry.1.toList, String.ofList entry.2.toList) = _
    rw [String.ofList_toList, String.ofList_toList]

theorem exists_of_decode_eq_error {e : RawEntry} {cause : MarkupFault}
    (h : e.decode = .error cause) : ∃ raw ∈ [e.key, e.value], unescape raw = .error cause := by
  rw [decode] at h
  cases hkey : unescape e.key with
  | error fault =>
      rw [hkey] at h
      cases h
      exact ⟨e.key, List.mem_cons_self, hkey⟩
  | ok key =>
      cases hvalue : unescape e.value with
      | error fault =>
          rw [hkey, hvalue] at h
          cases h
          exact ⟨e.value, List.mem_cons_of_mem _ List.mem_cons_self, hvalue⟩
      | ok value =>
          rw [hkey, hvalue] at h
          cases h

end RawEntry

/-- The next entry of a text, and what follows it. Elements whose names only start with `entry` are
passed, and an element that is closed by its start tag has an empty value. -/
inductive Next : List Char → RawEntry → List Char → Prop
  | skip {s before after e rest} : splitFirst? "<entry".toList s = some (before, after) →
      endsName after.head? = false → Next after e rest → Next s e rest
  | closed {s before after tag rest key} : splitFirst? "<entry".toList s = some (before, after) →
      endsName after.head? = true → splitFirst? ['>'] after = some (tag, rest) →
      keyAttribute? (Text.dropEndWhile (· = '/') tag) = some key → tag.getLast? = some '/' →
      Next s ⟨key, []⟩ rest
  | element {s before after tag afterTag rest key value} :
      splitFirst? "<entry".toList s = some (before, after) → endsName after.head? = true →
      splitFirst? ['>'] after = some (tag, afterTag) →
      keyAttribute? (Text.dropEndWhile (· = '/') tag) = some key → tag.getLast? ≠ some '/' →
      splitFirst? "</entry>".toList afterTag = some (value, rest) → Next s ⟨key, value⟩ rest

/-- No element `entry` is left in a text. -/
inductive NoEntry : List Char → Prop
  | none {s} : splitFirst? "<entry".toList s = none → NoEntry s
  | skip {s before after} : splitFirst? "<entry".toList s = some (before, after) →
      endsName after.head? = false → NoEntry after → NoEntry s

/-- A text starts with some entries, one after another. -/
inductive Leads : List Char → List RawEntry → List Char → Prop
  | nil {s} : Leads s [] s
  | cons {s e middle raws rest} : Next s e middle → Leads middle raws rest →
      Leads s (e :: raws) rest

theorem Next.length_lt {s rest : List Char} {e : RawEntry} (h : Next s e rest) :
    rest.length < s.length := by
  have hlength : "<entry".toList.length = 6 := rfl
  induction h with
  | skip hname _ _ ih =>
      have hafter := length_le_of_splitFirst? hname
      omega
  | closed hname _ htag _ _ =>
      have hafter := length_le_of_splitFirst? hname
      have hrest := length_le_of_splitFirst? htag
      omega
  | element hname _ htag _ _ hclose =>
      have hafter := length_le_of_splitFirst? hname
      have hafterTag := length_le_of_splitFirst? htag
      have hrest := length_le_of_splitFirst? hclose
      omega

theorem NoEntry.bodyEntries_eq {s : List Char} (h : NoEntry s) : bodyEntries s = .ok [] := by
  induction h with
  | none hname => rw [Xml.bodyEntries_eq, hname]
  | skip hname hends _ ih =>
      rw [Xml.bodyEntries_eq, hname]
      simp only [hends, Bool.false_eq_true, if_false]
      exact ih

theorem Next.bodyEntries_eq {s rest : List Char} {e : RawEntry} (h : Next s e rest) :
    bodyEntries s = e.decode >>= fun entry => (entry :: ·) <$> bodyEntries rest := by
  induction h with
  | skip hname hends _ ih =>
      rw [Xml.bodyEntries_eq, hname]
      simp only [hends, Bool.false_eq_true, if_false]
      exact ih
  | @closed s before after tag rest key hname hends htag hkey hslash =>
      rw [Xml.bodyEntries_eq, hname]
      simp only [hends, htag, hkey, hslash, if_true, RawEntry.decode,
        unescape_of_splitFirst?_none (s := []) rfl]
      cases unescape key <;> rfl
  | @element s before after tag afterTag rest key value hname hends htag hkey hslash hclose =>
      rw [Xml.bodyEntries_eq, hname]
      simp only [hends, htag, hkey, hslash, hclose, if_true, if_false, RawEntry.decode]
      cases unescape key with
      | error fault => rfl
      | ok key' => cases unescape value <;> rfl

/-- A scan goes on, comes to its end, or fails whatever the texts say. -/
theorem next_or_noEntry (s : List Char) :
    NoEntry s ∨ (∃ e rest, Next s e rest) ∨ ∀ entries, bodyEntries s ≠ .ok entries := by
  induction hlength : s.length using Nat.strong_induction_on generalizing s with
  | _ n ih =>
    subst hlength
    rcases hname : splitFirst? "<entry".toList s with _ | ⟨before, after⟩
    · exact .inl (.none hname)
    cases hends : endsName after.head? with
    | false =>
        have hshorter := length_le_of_splitFirst? hname
        have hsign : "<entry".toList.length = 6 := rfl
        rcases ih after.length (by omega) after rfl with hnone | ⟨e, rest, hnext⟩ | hfails
        · exact .inl (.skip hname hends hnone)
        · exact .inr (.inl ⟨e, rest, .skip hname hends hnext⟩)
        · refine .inr (.inr fun entries => ?_)
          rw [bodyEntries_eq, hname]
          simpa only [hends, Bool.false_eq_true, if_false] using hfails entries
    | true =>
        have hread := bodyEntries_eq s
        rw [hname] at hread
        have hfault {fault : MarkupFault} (h : bodyEntries s = .error fault) :
            ∀ entries, bodyEntries s ≠ .ok entries := by
          intro entries hok
          rw [h] at hok
          cases hok
        rcases htag : splitFirst? ['>'] after with _ | ⟨tag, afterTag⟩
        · simp only [hends, htag, if_true] at hread
          exact .inr (.inr (hfault hread))
        rcases hkey : keyAttribute? (Text.dropEndWhile (· = '/') tag) with _ | key
        · simp only [hends, htag, hkey, if_true] at hread
          exact .inr (.inr (hfault hread))
        by_cases hslash : tag.getLast? = some '/'
        · exact .inr (.inl ⟨_, _, .closed hname hends htag hkey hslash⟩)
        rcases hclose : splitFirst? "</entry>".toList afterTag with _ | ⟨value, rest⟩
        · simp only [hends, htag, hkey, hslash, hclose, if_true, if_false] at hread
          refine .inr (.inr fun entries h => ?_)
          obtain ⟨key', -, hclosed⟩ := exists_of_bind_ok (hread.symm.trans h)
          cases hclosed
        · exact .inr (.inl ⟨_, _, .element hname hends htag hkey hslash hclose⟩)

theorem Leads.bodyEntries_eq {s rest : List Char} {raws : List RawEntry} (h : Leads s raws rest) :
    bodyEntries s =
      raws.mapM RawEntry.decode >>= fun entries => (entries ++ ·) <$> bodyEntries rest := by
  induction h with
  | nil => exact (id_map _).symm
  | cons hnext _ ih =>
      rw [hnext.bodyEntries_eq, ih, List.mapM_cons, bind_assoc]
      refine bind_congr fun entry => ?_
      simp only [map_bind, bind_assoc, pure_bind, Functor.map_map, List.cons_append]

theorem exists_leads_of_bodyEntries {s : List Char} {entries : List (String × String)}
    (h : bodyEntries s = .ok entries) : ∃ raws rest, Leads s raws rest ∧ NoEntry rest ∧
      raws.mapM RawEntry.decode = .ok entries := by
  -- The induction is on the length of the body, which every entry shortens.
  induction hlength : s.length using Nat.strong_induction_on generalizing s entries with
  | _ n ih =>
    subst hlength
    rcases next_or_noEntry s with hnone | ⟨e, middle, hnext⟩ | hfails
    · rw [hnone.bodyEntries_eq] at h
      cases h
      exact ⟨[], s, .nil, hnone, rfl⟩
    · rw [hnext.bodyEntries_eq] at h
      obtain ⟨entry, hentry, hmap⟩ := exists_of_bind_ok h
      obtain ⟨entries', hmiddle, rfl⟩ := exists_of_map_ok hmap
      obtain ⟨raws, rest, hleads, hnone, hdecode⟩ := ih middle.length hnext.length_lt hmiddle rfl
      refine ⟨e :: raws, rest, .cons hnext hleads, hnone, ?_⟩
      rw [List.mapM_cons, hentry, hdecode]
      rfl
    · exact absurd h (hfails entries)

theorem bodyEntries_eq_ok_iff {s : List Char} {entries : List (String × String)} :
    bodyEntries s = .ok entries ↔ ∃ raws rest, Leads s raws rest ∧ NoEntry rest ∧
      List.Forall₂ RawEntry.DecodedAs raws entries := by
  have hdecode {raws : List RawEntry} : raws.mapM RawEntry.decode = .ok entries ↔
      List.Forall₂ RawEntry.DecodedAs raws entries := by
    rw [mapM_eq_ok_iff]
    simp only [RawEntry.decode_eq_ok_iff]
  constructor
  · intro h
    obtain ⟨raws, rest, hleads, hnone, hraws⟩ := exists_leads_of_bodyEntries h
    exact ⟨raws, rest, hleads, hnone, hdecode.1 hraws⟩
  · rintro ⟨raws, rest, hleads, hnone, hraws⟩
    rw [hleads.bodyEntries_eq, hdecode.2 hraws, hnone.bodyEntries_eq]
    exact congrArg Except.ok (List.append_nil entries)

theorem Leads.exists_error {s rest : List Char} {raws : List RawEntry} (h : Leads s raws rest)
    (hraws : ∃ e ∈ raws, ¬ (Referenced Taken e.key ∧ Referenced Taken e.value)) :
    ∃ e ∈ raws, ∃ raw ∈ [e.key, e.value], ∃ cause, unescape raw = .error cause ∧
      bodyEntries s = .error cause := by
  obtain ⟨e, he, hbad⟩ := hraws
  have hfails : ∀ entry, e.decode ≠ .ok entry := by
    intro entry hentry
    obtain ⟨hkey, hvalue⟩ := RawEntry.decode_eq_ok_iff.1 hentry
    exact hbad ⟨exists_unescape_iff.1 ⟨_, unescape_eq_ok_iff.2 hkey⟩,
      exists_unescape_iff.1 ⟨_, unescape_eq_ok_iff.2 hvalue⟩⟩
  obtain ⟨e', he', cause, hcause, hmapM⟩ := exists_of_mapM_fails ⟨e, he, hfails⟩
  obtain ⟨raw, hraw, hunescape⟩ := RawEntry.exists_of_decode_eq_error hcause
  refine ⟨e', he', raw, hraw, cause, hunescape, ?_⟩
  rw [h.bodyEntries_eq, hmapM]
  rfl

def bodyOf (text : String) : Except MarkupFault (List Char) :=
  stripComments text.toList >>= rootBody

theorem entriesOf_eq (text : String) : entriesOf text.toList = bodyOf text >>= bodyEntries :=
  (bind_assoc _ _ _).symm

theorem parse_eq_ok_iff {text : String} {m : KeyMap String} :
    parse text = .ok m ↔ ∃ body entries, bodyOf text = .ok body ∧
      bodyEntries body = .ok entries ∧ m = .ofList entries := by
  constructor
  · intro h
    cases hentries : entriesOf text.toList with
    | error fault =>
        rw [parse, hentries] at h
        cases h
    | ok entries =>
        rw [parse, hentries] at h
        cases h
        rw [entriesOf_eq] at hentries
        obtain ⟨body, hbody, hread⟩ := exists_of_bind_ok hentries
        exact ⟨body, entries, hbody, hread, rfl⟩
  · rintro ⟨body, entries, hbody, hread, rfl⟩
    have hentries : entriesOf text.toList = .ok entries := by
      rw [entriesOf_eq, hbody]
      exact hread
    rw [parse, hentries]

/-- A text is decoded exactly if a reference stands behind each `&`, each of them is replaced by its
character once, and a document is read exactly if all texts of its entries are decoded; a text that
cannot be decoded makes it fail. Plus signs apart, the references are the five names and the numbers
of characters in digits: behind a `+` the digits of a number are read as well. -/
theorem parse_references (text : String) :
    (∀ raw, (∃ decoded, unescape raw = .ok decoded) ↔ Referenced Taken raw) ∧
    (∀ raw decoded, unescape raw = .ok decoded ↔ Decodes Taken raw decoded) ∧
    (∀ raw, Referenced Reference raw ↔ Referenced Taken raw ∧ Unsigned raw) ∧
    (∀ raw, Unsigned raw →
      ((∃ decoded, unescape raw = .ok decoded) ↔ Referenced Reference raw) ∧
        ∀ decoded, unescape raw = .ok decoded ↔ Decodes Reference raw decoded) ∧
    (∀ m, parse text = .ok m ↔ ∃ body raws rest entries, bodyOf text = .ok body ∧
      Leads body raws rest ∧ NoEntry rest ∧ List.Forall₂ RawEntry.DecodedAs raws entries ∧
        m = .ofList entries) ∧
    ∀ body raws rest, bodyOf text = .ok body → Leads body raws rest →
      (∃ e ∈ raws, ¬ (Referenced Taken e.key ∧ Referenced Taken e.value)) →
      ∃ fault, parse text = .error fault ∧
        ∃ e ∈ raws, ∃ raw ∈ [e.key, e.value], ∃ cause, unescape raw = .error cause ∧
          fault.toError = .parse s!"invalid XML properties: {cause.message}" none := by
  refine ⟨fun raw => exists_unescape_iff, fun raw decoded => unescape_eq_ok_iff,
    fun raw => referenced_reference_iff, fun raw hunsigned => ⟨?_, fun decoded => ?_⟩, fun m => ?_,
    fun body raws rest hbody hleads hraws => ?_⟩
  · rw [exists_unescape_iff, referenced_reference_iff]
    exact (and_iff_left hunsigned).symm
  · rw [unescape_eq_ok_iff, decodes_reference_iff]
    exact (and_iff_left hunsigned).symm
  · rw [parse_eq_ok_iff]
    constructor
    · rintro ⟨body, entries, hbody, hread, rfl⟩
      obtain ⟨raws, rest, hleads, hnone, hraws⟩ := bodyEntries_eq_ok_iff.1 hread
      exact ⟨body, raws, rest, entries, hbody, hleads, hnone, hraws, rfl⟩
    · rintro ⟨body, raws, rest, entries, hbody, hleads, hnone, hraws, rfl⟩
      have hread := bodyEntries_eq_ok_iff.2 ⟨raws, rest, hleads, hnone, hraws⟩
      exact ⟨body, entries, hbody, hread, rfl⟩
  · obtain ⟨e, he, raw, hraw, cause, hunescape, hread⟩ := hleads.exists_error hraws
    have hentries : entriesOf text.toList = .error cause := by
      rw [entriesOf_eq, hbody]
      exact hread
    refine ⟨.markup cause, ?_, e, he, raw, hraw, cause, hunescape, rfl⟩
    rw [parse, hentries]

namespace Sample

/-- References by name and by number are decoded, and a name that is none of the five is refused. -/
theorem references_decoded :
    Decodes Reference "&lt;&#50;&#x33;".toList "<23".toList ∧
      parse "<properties><entry key=\"a\">&lt;&#50;&#x33;</entry></properties>" =
        .ok (.ofList [("a", "<23")]) ∧
      ¬ Referenced Reference "&copy;".toList ∧
      ∃ fault, parse "<properties><entry key=\"a\">&copy;</entry></properties>" =
        .error fault := by
  have hfifty : Literal.Denotes 10 "50".toList '2'.toNat := ⟨by decide, [5, 0], rfl, rfl⟩
  have hthirtyThree : Literal.Denotes 16 "33".toList '3'.toNat := ⟨by decide, [3, 3], rfl, rfl⟩
  have hdecodes := Decodes.reference Reference.lt (.reference (Reference.decimal hfifty)
    (.reference (Reference.hexadecimal hthirtyThree) .nil))
  have hleads : Leads "<entry key=\"a\">&lt;&#50;&#x33;</entry>".toList
      [⟨"a".toList, "&lt;&#50;&#x33;".toList⟩] [] :=
    .cons (.element rfl rfl rfl (by decide +kernel) (by decide) rfl) .nil
  have hleads' : Leads "<entry key=\"a\">&copy;</entry>".toList
      [⟨"a".toList, "&copy;".toList⟩] [] :=
    .cons (.element rfl rfl rfl (by decide +kernel) (by decide) rfl) .nil
  have hdecoded : RawEntry.DecodedAs ⟨"a".toList, "&lt;&#50;&#x33;".toList⟩ ("a", "<23") :=
    ⟨.plain (by decide) .nil, (decodes_reference_iff.1 hdecodes).1⟩
  have hunknown : unescape "&copy;".toList = .error (.unknownReference "copy".toList) := by
    decide +kernel
  obtain ⟨-, -, -, -, hread, -⟩ :=
    parse_references "<properties><entry key=\"a\">&lt;&#50;&#x33;</entry></properties>"
  obtain ⟨hdecodable, -, hreferenced, -, -, hrefused⟩ :=
    parse_references "<properties><entry key=\"a\">&copy;</entry></properties>"
  have htaken : ¬ Referenced Taken "&copy;".toList := by
    rw [← hdecodable, hunknown]
    rintro ⟨decoded, ⟨⟩⟩
  refine ⟨hdecodes, (hread _).2 ⟨_, _, _, _, by decide +kernel, hleads, .none rfl,
    .cons hdecoded .nil, rfl⟩, fun h => htaken ((hreferenced _).1 h).1, ?_⟩
  obtain ⟨fault, hfault, -⟩ := hrefused _ _ _ (by decide +kernel) hleads'
    ⟨_, List.mem_cons_self, fun h => htaken h.2⟩
  exact ⟨fault, hfault⟩

/-- A number with a plus sign is read, although it is no reference. -/
theorem signed_reference_read :
    Leads "<entry key=\"a\">&#+65;</entry>".toList [⟨"a".toList, "&#+65;".toList⟩] [] ∧
      ¬ Referenced Reference "&#+65;".toList ∧
      parse "<properties><entry key=\"a\">&#+65;</entry></properties>" =
        .ok (.ofList [("a", "A")]) := by
  refine ⟨.cons (.element rfl rfl rfl (by decide +kernel) (by decide) rfl) .nil, fun h => ?_,
    by decide +kernel⟩
  obtain ⟨-, hunsigned⟩ := referenced_reference_iff.1 h
  exact (hunsigned "#+65;".toList List.suffix_rfl).1 (List.prefix_append "#+".toList "65;".toList)

end Sample

end LayeredConfig.Format.Xml
