import LayeredConfig.Proofs.Text.Search
import LayeredConfig.Proofs.Xml.References
import Mathlib.Data.List.Find
import Mathlib.Data.List.TakeWhile

/-!
The attributes of a start tag, and the search for the attribute `key` among them. The search goes
through a tag from left to right, and remembers of what it has passed only whether a name may start
(`keyFrom`). It stops at the first text that looks like an attribute `key` (`Offers`), so it finds
the attribute of that name as long as nothing in the attributes before it looks like one.
-/

namespace LayeredConfig.Format.Xml

open Text (splitFirst? dropPrefix? splitFirst?_cons splitFirst?_append dropPrefix?_eq_none_iff
  forall_of_all)

/-- The search for the attribute `key`, where a name may start at once or not. -/
def keyFrom (starts : Bool) : List Char → Option (List Char)
  | 'k' :: 'e' :: 'y' :: rest =>
    match starts, rest.dropWhile Text.isWhite with
    | true, '=' :: value => quotedValue? (value.dropWhile Text.isWhite)
    | _, _ => keyFrom true rest
  | c :: rest => keyFrom (Text.isWhite c) rest
  | [] => none

theorem keyFrom_cons {c : Char} {s : List Char} (h : ¬ "key".toList <+: c :: s) (starts : Bool) :
    keyFrom starts (c :: s) = keyFrom (Text.isWhite c) s := by
  rw [keyFrom]
  rintro rest rfl rfl
  exact h ⟨rest, rfl⟩

theorem keyFrom_key (starts : Bool) (s : List Char) :
    keyFrom starts ("key".toList ++ s) =
      match starts, s.dropWhile Text.isWhite with
      | true, '=' :: value => quotedValue? (value.dropWhile Text.isWhite)
      | _, _ => keyFrom true s := rfl

theorem keyFrom_key_passed {starts : Bool} {s : List Char}
    (h : ¬ (starts = true ∧ s.find? (!Text.isWhite ·) = some '=')) :
    keyFrom starts ("key".toList ++ s) = keyFrom true s := by
  rw [keyFrom_key]
  split
  · rename_i value hsign
    refine absurd ⟨rfl, ?_⟩ h
    rw [List.find?_not_eq_head?_dropWhile, hsign]
    rfl
  · rfl

/-- A text is gone through one name at a time, and one character at a time between names. -/
theorem key_induction {motive : List Char → Prop} (nil : motive [])
    (key : ∀ s, motive s → motive ("key".toList ++ s))
    (cons : ∀ c s, ¬ "key".toList <+: c :: s → motive s → motive (c :: s)) (s : List Char) :
    motive s := by
  induction hlength : s.length using Nat.strongRecOn generalizing s with
  | _ n ih =>
      subst hlength
      by_cases hkey : "key".toList <+: s
      · obtain ⟨s, rfl⟩ := hkey
        exact key s (ih s.length (by simp; omega) s rfl)
      · cases s with
        | nil => exact nil
        | cons c s => exact cons c s hkey (ih s.length (by simp) s rfl)

theorem keyFrom_of_splitFirst?_none {s : List Char} (h : splitFirst? "key".toList s = none)
    (starts : Bool) : keyFrom starts s = none := by
  induction s generalizing starts with
  | nil => rfl
  | cons c s ih =>
      have hheld := mt List.infix_cons_iff.2 (Text.splitFirst?_eq_none_iff.1 h)
      rw [not_or] at hheld
      rw [keyFrom_cons hheld.1]
      exact ih (Text.splitFirst?_eq_none_iff.2 hheld.2) _

theorem keyFrom_of_splitFirst? {s before after : List Char}
    (h : splitFirst? "key".toList s = some (before, after)) (starts : Bool) :
    keyFrom starts s =
      keyFrom (before.getLast?.elim starts Text.isWhite) ("key".toList ++ after) := by
  induction s generalizing before starts with
  | nil => cases h
  | cons c s ih =>
      cases hdrop : dropPrefix? "key".toList (c :: s) with
      | some rest =>
          simp only [splitFirst?, hdrop, Option.some.injEq, Prod.mk.injEq] at h
          obtain ⟨rfl, rfl⟩ := h
          rw [Text.eq_append_of_dropPrefix? hdrop]
          rfl
      | none =>
          rw [splitFirst?_cons hdrop] at h
          obtain ⟨⟨before', after'⟩, hfound, hcut⟩ := Option.map_eq_some_iff.1 h
          cases hcut
          rw [keyFrom_cons (dropPrefix?_eq_none_iff.1 hdrop), ih hfound, List.getLast?_cons]
          cases before'.getLast? <;> rfl

theorem keyAttribute?_eq (s : List Char) : keyAttribute? s = keyFrom true s := by
  induction hlength : s.length using Nat.strongRecOn generalizing s with
  | _ n ih =>
      subst hlength
      rw [keyAttribute?]
      split
      · rename_i hsplit
        exact (keyFrom_of_splitFirst?_none hsplit true).symm
      · rename_i before after hsplit
        have hshorter : after.length < s.length := by
          have hlength := length_le_of_splitFirst? hsplit
          have hkey : "key".toList.length = 3 := rfl
          omega
        have hlast : before.getLast?.all Text.isWhite = before.getLast?.elim true Text.isWhite := by
          cases before.getLast? <;> rfl
        rw [keyFrom_of_splitFirst? hsplit, ← hlast, ih after.length hshorter after rfl]
        exact (keyFrom_key _ after).symm

theorem keyFrom_skip {a : List Char} {d : Char} (ha : 'k' ∉ a ++ [d]) (starts : Bool)
    (s : List Char) : keyFrom starts (a ++ d :: s) = keyFrom (Text.isWhite d) s := by
  have hname {c : Char} (hc : 'k' ≠ c) (t : List Char) : ¬ "key".toList <+: c :: t :=
    dropPrefix?_eq_none_iff.1 (Text.dropPrefix?_of_ne hc _ t)
  induction a generalizing starts with
  | nil => exact keyFrom_cons (hname (List.ne_of_not_mem_cons ha) s) starts
  | cons c a ih =>
      rw [List.cons_append, keyFrom_cons (hname (List.ne_of_not_mem_cons ha) _)]
      exact ih (List.not_mem_of_not_mem_cons ha) _

theorem keyFrom_of_not_mem {s : List Char} (h : 'k' ∉ s) (starts : Bool) :
    keyFrom starts s = none :=
  keyFrom_of_splitFirst?_none (Text.splitFirst?_of_not_mem h _) starts

/-- A text offers a value where the name `key` stands in it, with an equals sign behind it, and
white space, the name itself or what it starts after before it. -/
def Offers (starts : Bool) (s : List Char) : Prop :=
  ∃ before after, s = before ++ ("key".toList ++ after) ∧
    (before.getLast?.elim starts Text.isWhite = true ∨ "key".toList <:+ before) ∧
    after.find? (!Text.isWhite ·) = some '='

theorem not_offers_nil (starts : Bool) : ¬ Offers starts [] := by
  rintro ⟨before, after, h, -⟩
  have hkey := (List.append_eq_nil_iff.1 h.symm).2
  cases hkey

theorem offers_cons_iff {c : Char} {s : List Char} (h : ¬ "key".toList <+: c :: s)
    (starts : Bool) : Offers starts (c :: s) ↔ Offers (Text.isWhite c) s := by
  have hlast (before : List Char) : (c :: before).getLast?.elim starts Text.isWhite =
      before.getLast?.elim (Text.isWhite c) Text.isWhite := by
    rw [List.getLast?_cons]
    cases before.getLast? <;> rfl
  constructor
  · rintro ⟨before, after, heq, hstarts, hsign⟩
    cases before with
    | nil => exact absurd ⟨after, heq.symm⟩ h
    | cons d before =>
        obtain ⟨rfl, rfl⟩ := List.cons.inj heq
        refine ⟨before, after, rfl, ?_, hsign⟩
        rw [hlast, List.suffix_cons_iff] at hstarts
        rcases hstarts with hwhite | hname | hname
        · exact .inl hwhite
        · exact absurd ⟨_, (congrArg (· ++ ("key".toList ++ after)) hname)⟩ h
        · exact .inr hname
  · rintro ⟨before, after, rfl, hstarts, hsign⟩
    refine ⟨c :: before, after, rfl, ?_, hsign⟩
    rw [hlast, List.suffix_cons_iff]
    exact hstarts.imp id .inr

theorem key_append_eq {before after s : List Char}
    (h : "key".toList ++ s = before ++ ("key".toList ++ after)) :
    before = [] ∧ s = after ∨
      ∃ rest, before = "key".toList ++ rest ∧ s = rest ++ ("key".toList ++ after) := by
  have hkey : "key".toList = ['k', 'e', 'y'] := rfl
  rw [hkey] at h ⊢
  rcases before with _ | ⟨a, _ | ⟨b, _ | ⟨c, rest⟩⟩⟩
  · exact .inl ⟨rfl, by simpa using h⟩
  · simp at h
  · simp at h
  · simp only [List.cons_append, List.nil_append, List.cons.injEq] at h
    obtain ⟨rfl, rfl, rfl, rfl⟩ := h
    exact .inr ⟨rest, rfl, rfl⟩

theorem offers_key_iff (starts : Bool) (s : List Char) :
    Offers starts ("key".toList ++ s) ↔
      (starts = true ∧ s.find? (!Text.isWhite ·) = some '=') ∨ Offers true s := by
  have hlast (rest : List Char) (hrest : rest ≠ []) :
      ("key".toList ++ rest).getLast? = rest.getLast? := by
    rw [List.getLast?_append_of_ne_nil _ hrest]
  constructor
  · rintro ⟨before, after, heq, hstarts, hsign⟩
    rcases key_append_eq heq with ⟨rfl, rfl⟩ | ⟨rest, rfl, rfl⟩
    · rcases hstarts with hstarts | hname
      · exact .inl ⟨hstarts, hsign⟩
      · exact absurd (List.suffix_nil.1 hname) (by decide)
    · refine .inr ⟨rest, after, rfl, ?_, hsign⟩
      rcases rest with _ | ⟨c, rest⟩
      · exact .inl rfl
      · rw [hlast _ (List.cons_ne_nil c rest)] at hstarts
        rcases hstarts with hwhite | ⟨t, ht⟩
        · exact .inl hwhite
        · have ht' : "key".toList ++ (c :: rest) = t ++ ("key".toList ++ []) := by
            rw [List.append_nil, ht]
          rcases key_append_eq ht' with ⟨-, hnil⟩ | ⟨t, -, hname⟩
          · cases hnil
          · exact .inr ⟨t, by rw [hname, List.append_nil]⟩
  · rintro (⟨rfl, hsign⟩ | ⟨before, after, rfl, hstarts, hsign⟩)
    · exact ⟨[], s, rfl, .inl rfl, hsign⟩
    · refine ⟨"key".toList ++ before, after, (List.append_assoc ..).symm, ?_, hsign⟩
      rcases before with _ | ⟨c, before⟩
      · exact .inr List.suffix_rfl
      · rw [hlast _ (List.cons_ne_nil c before)]
        exact hstarts.imp id fun hname => hname.trans (List.suffix_append ..)

theorem offers_iff (starts : Bool) (s : List Char) :
    Offers starts s ↔ ∃ n ∈ List.range (s.length + 1),
      ∃ after ∈ (dropPrefix? "key".toList (s.drop n)).toList,
        ((s.take n).getLast?.elim starts Text.isWhite = true ∨ "key".toList <:+ s.take n) ∧
        after.find? (!Text.isWhite ·) = some '=' := by
  constructor
  · rintro ⟨before, after, rfl, hoffer⟩
    refine ⟨before.length, List.mem_range.2 ?_, after, ?_, ?_⟩
    · simp only [List.length_append]
      omega
    · rw [List.drop_left, Option.mem_toList]
      exact Text.dropPrefix?_append ..
    · rwa [List.take_left]
  · rintro ⟨n, -, after, hafter, hoffer⟩
    refine ⟨s.take n, after, ?_, hoffer⟩
    rw [← Text.eq_append_of_dropPrefix? (Option.mem_toList.1 hafter), List.take_append_drop]

instance (starts : Bool) : DecidablePred (Offers starts) := fun s =>
  decidable_of_iff' _ (offers_iff starts s)

theorem not_key_prefix_append {q : List Char} {d : Char} (h : ¬ "key".toList <+: q)
    (hd : d ∉ "key".toList) (s : List Char) : ¬ "key".toList <+: q ++ d :: s := by
  intro hleads
  rcases List.prefix_or_prefix_of_prefix hleads (List.prefix_append q (d :: s)) with
    hwithin | ⟨rest, hrest⟩
  · exact h hwithin
  · rw [← hrest, List.prefix_append_right_inj] at hleads
    cases rest with
    | nil => exact h (by rw [← hrest, List.append_nil])
    | cons c rest =>
        obtain ⟨rfl, -⟩ := List.cons_prefix_cons.1 hleads
        exact hd (hrest ▸ List.mem_append_right q List.mem_cons_self)

/-- Where nothing is offered, a text is passed together with a character behind it that is neither
white space nor in the name. -/
theorem keyFrom_silent {p : List Char} {d : Char} {starts : Bool} (h : ¬ Offers starts (p ++ [d]))
    (hwhite : Text.isWhite d = false) (hkey : d ∉ "key".toList) (s : List Char) :
    keyFrom starts (p ++ d :: s) = keyFrom false s := by
  have hends {q : List Char} (hq : ¬ "key".toList <+: q) (t : List Char) :
      ¬ "key".toList <+: q ++ d :: t := not_key_prefix_append hq hkey t
  induction p using key_induction generalizing starts with
  | nil =>
      rw [List.nil_append, keyFrom_cons (hends (q := []) (by decide) s), hwhite]
  | key p ih =>
      rw [List.append_assoc, offers_key_iff, not_or] at h
      have hsame : (p ++ d :: s).find? (!Text.isWhite ·) = (p ++ [d]).find? (!Text.isWhite ·) := by
        simp [hwhite]
      rw [List.append_assoc, keyFrom_key_passed (hsame ▸ h.1), ih h.2]
  | cons c p hc ih =>
      have hnow : ¬ "key".toList <+: c :: (p ++ d :: s) := hends hc s
      have hnow' : ¬ "key".toList <+: c :: (p ++ [d]) := hends hc []
      rw [List.cons_append, offers_cons_iff hnow'] at h
      rw [List.cons_append, keyFrom_cons hnow, ih h]

theorem Offers.of_concat {p : List Char} {d : Char} {starts : Bool}
    (h : Offers starts (p ++ [d])) (hd : d ≠ '=') : Offers starts p := by
  obtain ⟨before, after, heq, hstarts, hsign⟩ := h
  rcases after.eq_nil_or_concat' with rfl | ⟨after, c, rfl⟩
  · cases hsign
  · rw [← List.append_assoc, ← List.append_assoc] at heq
    obtain ⟨rfl, hc⟩ := List.append_inj' heq rfl
    cases hc
    refine ⟨before, after, List.append_assoc .., hstarts, ?_⟩
    rw [List.find?_append, Option.or_eq_some_iff] at hsign
    rcases hsign with hsign | ⟨-, hlast⟩
    · exact hsign
    · exact absurd (List.mem_singleton.1 (List.mem_of_find?_eq_some hlast)).symm hd

theorem Offers.keyFrom {p : List Char} {starts : Bool} (h : Offers starts p) :
    ∃ before value, p = before ++ '=' :: value ∧
      ∀ s, keyFrom starts (p ++ s) = quotedValue? ((value ++ s).dropWhile Text.isWhite) := by
  induction p using key_induction generalizing starts with
  | nil => exact absurd h (not_offers_nil starts)
  | key p ih =>
      by_cases hsign : starts = true ∧ p.find? (!Text.isWhite ·) = some '='
      · obtain ⟨rfl, hsign⟩ := hsign
        rw [List.find?_not_eq_head?_dropWhile] at hsign
        obtain ⟨value, hvalue⟩ := List.head?_eq_some_iff.1 hsign
        refine ⟨"key".toList ++ p.takeWhile Text.isWhite, value, ?_, fun s => ?_⟩
        · rw [List.append_assoc, ← hvalue, List.takeWhile_append_dropWhile]
        · rw [List.append_assoc, keyFrom_key, List.dropWhile_append, hvalue]
          rfl
      · -- The name at the start offers nothing, so what is offered stands behind it.
        have hlater := ((offers_key_iff starts p).1 h).resolve_left hsign
        obtain ⟨before, value, rfl, hread⟩ := ih hlater
        refine ⟨"key".toList ++ before, value, (List.append_assoc ..).symm, fun s => ?_⟩
        have hsame : (before ++ '=' :: value ++ s).find? (!Text.isWhite ·) =
            (before ++ '=' :: value).find? (!Text.isWhite ·) := by
          simp [show Text.isWhite '=' = false from by decide]
        rw [List.append_assoc, keyFrom_key_passed (hsame ▸ hsign), hread]
  | cons c p hc ih =>
      rw [offers_cons_iff hc] at h
      obtain ⟨before, value, rfl, hread⟩ := ih h
      have hbefore : ¬ "key".toList <+: c :: before := fun hleads =>
        hc (hleads.trans (List.prefix_append (c :: before) ('=' :: value)))
      refine ⟨c :: before, value, rfl, fun s => ?_⟩
      have hlater : ¬ "key".toList <+: c :: (before ++ '=' :: (value ++ s)) :=
        not_key_prefix_append hbefore (by decide) (value ++ s)
      rw [← hread s, List.append_assoc, List.cons_append, List.cons_append, List.append_assoc,
        List.cons_append, keyFrom_cons hlater]

def spaces : List Char := [' ', '\t', '\r', '\n']

theorem mem_spaces_white : ∀ c ∈ spaces, Text.isWhite c = true := forall_of_all (by decide)

theorem not_mem_of_blank {s : List Char} (h : ∀ c ∈ s, c ∈ spaces) {m : Char} (hm : m ∉ spaces) :
    m ∉ s :=
  fun hmem => hm (h m hmem)

def brackets : List Char := ['<', '>', '/']

theorem bracket_not_mem_of_blank {m : Char} (hm : m ∈ brackets) {s : List Char}
    (h : ∀ c ∈ s, c ∈ spaces) : m ∉ s := by
  have hall : ∀ m ∈ brackets, m ∉ spaces := forall_of_all (by decide)
  exact not_mem_of_blank h (hall m hm)

def delimiters : List Char := spaces ++ ['=', '<', '>', '/', '&', '"', '\'']

/-- An attribute as it is written in a start tag: white space, a name, an equals sign that may stand
apart, and the escaped value in quotation marks of either style. -/
structure Attribute where
  space : List Char
  name : List Char
  beforeSign : List Char
  afterSign : List Char
  quote : Char
  raw : List Char
  text : List Char
  apart : space ≠ []
  blank : ∀ c ∈ space ++ (beforeSign ++ afterSign), c ∈ spaces
  plain : ∀ c ∈ name, c ∉ delimiters
  quoting : quote = '"' ∨ quote = '\''
  unquoted : quote ∉ raw
  escaped : Escaped raw text

namespace Attribute

variable (a : Attribute)

def sign : List Char := a.name ++ (a.beforeSign ++ ['='])

def opening : List Char := a.space ++ (a.sign ++ (a.afterSign ++ [a.quote]))

def written : List Char := a.opening ++ (a.raw ++ [a.quote])

/-- The name is `key`, or taken for it. -/
def Supplies : Prop := Offers true a.sign

instance : DecidablePred Supplies := fun a => inferInstanceAs (Decidable (Offers true a.sign))

def Quiet : Prop := ¬ Offers false a.raw

instance : DecidablePred Quiet := fun a => inferInstanceAs (Decidable (¬ Offers false a.raw))

theorem blank_space : ∀ c ∈ a.space, c ∈ spaces := fun c hc =>
  a.blank c (List.mem_append_left _ hc)

theorem blank_beforeSign : ∀ c ∈ a.beforeSign, c ∈ spaces := fun c hc =>
  a.blank c (List.mem_append_right _ (List.mem_append_left _ hc))

theorem blank_afterSign : ∀ c ∈ a.afterSign, c ∈ spaces := fun c hc =>
  a.blank c (List.mem_append_right _ (List.mem_append_right _ hc))

theorem not_mem_name {m : Char} (hm : m ∈ delimiters) : m ∉ a.name := fun hmem => a.plain m hmem hm

theorem quote_clean : Text.isWhite a.quote = false ∧ a.quote ∉ "key".toList ∧ a.quote ≠ '=' := by
  rcases a.quoting with h | h
  · rw [h]
    decide
  · rw [h]
    decide

theorem ne_quote {m : Char} (hm : m ∈ brackets) : m ≠ a.quote := by
  rintro rfl
  rcases a.quoting with h | h
  · rw [h] at hm
    exact absurd hm (by decide)
  · rw [h] at hm
    exact absurd hm (by decide)

theorem not_mem_opening {m : Char} (hm : m ∈ brackets) : m ∉ a.opening := by
  have hnames : ∀ m ∈ brackets, m ∈ delimiters ∧ m ≠ '=' := forall_of_all (by decide)
  obtain ⟨hname, hsign⟩ := hnames m hm
  simp only [opening, sign, List.mem_append, List.mem_singleton, not_or]
  exact ⟨bracket_not_mem_of_blank hm a.blank_space,
    ⟨a.not_mem_name hname, bracket_not_mem_of_blank hm a.blank_beforeSign, hsign⟩,
    bracket_not_mem_of_blank hm a.blank_afterSign, a.ne_quote hm⟩

theorem not_mem_written {m : Char} (hm : m ∈ brackets) (h : m ∉ a.raw) : m ∉ a.written := by
  refine List.not_mem_append (a.not_mem_opening hm) (List.not_mem_append h ?_)
  rw [List.mem_singleton]
  exact a.ne_quote hm

theorem sign_eq : ∃ p, a.sign = p ++ ['='] ∧ '=' ∉ p :=
  ⟨a.name ++ a.beforeSign, (List.append_assoc ..).symm,
    List.not_mem_append (a.not_mem_name (by decide))
      (not_mem_of_blank a.blank_beforeSign (by decide))⟩

theorem keyFrom_space (starts : Bool) (s : List Char) :
    keyFrom starts (a.space ++ s) = keyFrom true s := by
  obtain ⟨p, d, hspace⟩ := a.space.eq_nil_or_concat'.resolve_left a.apart
  have hk : 'k' ∉ p ++ [d] := hspace ▸ not_mem_of_blank a.blank_space (by decide)
  have hd : d ∈ a.space := hspace ▸ List.mem_append_right p List.mem_cons_self
  rw [hspace, List.append_assoc, List.singleton_append, keyFrom_skip hk,
    mem_spaces_white d (a.blank_space d hd)]

theorem keyFrom_opening {a : Attribute} (h : a.Supplies) (starts : Bool) (s : List Char) :
    keyFrom starts (a.opening ++ s) = quotedValue? (a.quote :: s) := by
  obtain ⟨before, value, heq, hread⟩ := Offers.keyFrom h
  obtain ⟨p, hp, hclean⟩ := a.sign_eq
  have hvalue : value = [] := by
    rcases value.eq_nil_or_concat' with hnil | ⟨value, c, rfl⟩
    · exact hnil
    · rw [hp, ← List.cons_append, ← List.append_assoc] at heq
      obtain ⟨rfl, -⟩ := List.append_inj' heq rfl
      exact absurd (List.mem_append_right before List.mem_cons_self) hclean
  rw [opening, List.append_assoc, keyFrom_space, List.append_assoc, hread, hvalue, List.nil_append,
    List.append_assoc, List.singleton_append,
    List.dropWhile_append_of_pos fun c hc => mem_spaces_white c (a.blank_afterSign c hc),
    List.dropWhile_cons_of_neg (by simp [a.quote_clean.1])]

theorem quotedValue?_written (s : List Char) :
    quotedValue? (a.quote :: (a.raw ++ a.quote :: s)) = some a.raw := by
  have hsplit : splitFirst? [a.quote] (a.raw ++ a.quote :: s) = some (a.raw, s) :=
    splitFirst?_append a.unquoted [] s
  rw [quotedValue?, if_pos a.quoting, hsplit]
  rfl

theorem quotedValue?_open {s : List Char} (h : a.quote ∉ s) :
    quotedValue? (a.quote :: s) = none := by
  rw [quotedValue?, if_pos a.quoting, Text.splitFirst?_of_not_mem h]
  rfl

theorem keyFrom_name_passed {a : Attribute} (h : ¬ a.Supplies) (starts : Bool) (s : List Char) :
    keyFrom starts (a.opening ++ s) = keyFrom false s := by
  obtain ⟨p, hp, -⟩ := a.sign_eq
  obtain ⟨hwhite, hkey, -⟩ := a.quote_clean
  have hname : ¬ Offers true (p ++ ['=']) := hp ▸ h
  have hafter : 'k' ∉ a.afterSign ++ [a.quote] := by
    refine List.not_mem_append (not_mem_of_blank a.blank_afterSign (by decide)) fun hquote => ?_
    exact hkey (List.mem_singleton.1 hquote ▸ by decide)
  have hopening : a.opening ++ s = a.space ++ (p ++ '=' :: (a.afterSign ++ a.quote :: s)) := by
    simp [opening, hp]
  rw [hopening, keyFrom_space, keyFrom_silent hname (by decide) (by decide), keyFrom_skip hafter,
    hwhite]

theorem keyFrom_passed {a : Attribute} (hname : ¬ a.Supplies) (hvalue : a.Quiet) (starts : Bool)
    (s : List Char) : keyFrom starts (a.written ++ s) = keyFrom false s := by
  obtain ⟨hwhite, hkey, hne⟩ := a.quote_clean
  have hvalue' : ¬ Offers false (a.raw ++ [a.quote]) := fun h => hvalue (h.of_concat hne)
  rw [written, List.append_assoc, keyFrom_name_passed hname, List.append_assoc,
    List.singleton_append, keyFrom_silent hvalue' hwhite hkey]

theorem find?_afterName : (a.beforeSign ++ ['=']).find? (!Text.isWhite ·) = some '=' := by
  rw [List.find?_append, List.find?_eq_none.2]
  · rfl
  · intro c hc
    simp [mem_spaces_white c (a.blank_beforeSign c hc)]

theorem supplies_of_name {a : Attribute} {before : List Char}
    (hname : a.name = before ++ "key".toList)
    (hstarts : before = [] ∨ "key".toList <:+ before) : a.Supplies := by
  refine ⟨before, a.beforeSign ++ ['='], ?_, ?_, a.find?_afterName⟩
  · rw [sign, hname, List.append_assoc]
  · rcases hstarts with rfl | hkey
    · exact .inl rfl
    · exact .inr hkey

theorem supplies_of_name_key {a : Attribute} (h : a.name = "key".toList) : a.Supplies :=
  supplies_of_name (List.nil_append "key".toList ▸ h) (.inl rfl)

/-- Without white space of any kind in it, a name is taken for `key` if it is `key`, or ends in it
twice. -/
theorem supplies_iff {a : Attribute} (hname : ∀ c ∈ a.name, Text.isWhite c = false) :
    a.Supplies ↔ a.name = "key".toList ∨ "keykey".toList <:+ a.name := by
  have htwice : "keykey".toList = "key".toList ++ "key".toList := by decide
  constructor
  · rintro ⟨before, after, heq, hstarts, hsign⟩
    have hwithin : ∃ rest, a.name = before ++ "key".toList ++ rest ∧
        after = rest ++ (a.beforeSign ++ ['=']) := by
      rw [sign, ← List.append_assoc before, List.append_eq_append_iff] at heq
      rcases heq with ⟨beyond, hbefore, hbeyond⟩ | hwithin
      · -- The name does not reach into the white space before the sign, which holds no `y`.
        rcases beyond.eq_nil_or_concat' with rfl | ⟨beyond, c, rfl⟩
        · exact ⟨[], by rw [List.append_nil, hbefore, List.append_nil], hbeyond.symm⟩
        · have hkey : "key".toList = "ke".toList ++ ['y'] := rfl
          rw [hkey, ← List.append_assoc, ← List.append_assoc] at hbefore
          obtain ⟨-, hy⟩ := List.append_inj' hbefore rfl
          cases hy
          have hmem : 'y' ∈ a.beforeSign ++ ['='] := by simp [hbeyond]
          refine absurd hmem (List.not_mem_append ?_ (by decide))
          exact not_mem_of_blank a.blank_beforeSign (by decide)
      · exact hwithin
    obtain ⟨rest, hrest, rfl⟩ := hwithin
    rcases rest with _ | ⟨c, rest⟩
    · rw [List.append_nil] at hrest
      rcases hstarts with hwhite | hkey
      · rcases before.eq_nil_or_concat' with rfl | ⟨before, c, rfl⟩
        · exact .inl hrest
        · have hc := hname c (by simp [hrest])
          rw [List.getLast?_concat] at hwhite
          exact absurd (hc.symm.trans hwhite) (by decide)
      · obtain ⟨first, rfl⟩ := hkey
        rw [htwice, hrest, List.append_assoc]
        exact .inr (List.suffix_append ..)
    · have hc : c ∈ a.name := by simp [hrest]
      rw [List.cons_append, List.find?_cons_of_pos (by simp [hname c hc])] at hsign
      exact absurd (Option.some.inj hsign ▸ hc) (a.not_mem_name (by decide))
  · rw [htwice]
    rintro (hkey | ⟨before, hkey⟩)
    · exact supplies_of_name_key hkey
    · rw [← List.append_assoc] at hkey
      exact supplies_of_name hkey.symm (.inr (List.suffix_append ..))

end Attribute

/-- A start tag after the name of the element: attributes of distinct names, and white space before
the end. -/
structure StartTag where
  attributes : List Attribute
  space : List Char
  distinct : (attributes.map (·.name)).Nodup
  blank : ∀ c ∈ space, c ∈ spaces

namespace StartTag

variable (t : StartTag)

def written : List Char := t.attributes.flatMap Attribute.written ++ t.space

def key? : Option Attribute := t.attributes.find? (·.name = "key".toList)

/-- The first attribute whose name is taken for `key`. -/
def supplier? : Option Attribute := t.attributes.find? Attribute.Supplies

/-- No value before the attribute whose name is taken for `key` looks like that attribute. -/
def Quiet : Prop := ∀ a ∈ t.attributes.takeWhile (¬ Attribute.Supplies ·), a.Quiet

instance : DecidablePred Quiet := fun t =>
  inferInstanceAs (Decidable (∀ a ∈ t.attributes.takeWhile (¬ Attribute.Supplies ·), a.Quiet))

/-- Nothing before the attribute whose whole name is `key` looks like it. -/
def Unambiguous : Prop :=
  ∀ a ∈ t.attributes.takeWhile (·.name ≠ "key".toList), ¬ a.Supplies ∧ a.Quiet

instance : DecidablePred Unambiguous := fun t =>
  inferInstanceAs (Decidable
    (∀ a ∈ t.attributes.takeWhile (·.name ≠ "key".toList), ¬ a.Supplies ∧ a.Quiet))

theorem keyFrom_passed {as : List Attribute} (h : ∀ a ∈ as, ¬ a.Supplies ∧ a.Quiet)
    (starts : Bool) (s : List Char) :
    ∃ starts', keyFrom starts (as.flatMap Attribute.written ++ s) = keyFrom starts' s := by
  induction as generalizing starts with
  | nil => exact ⟨starts, rfl⟩
  | cons a as ih =>
      obtain ⟨hname, hvalue⟩ := h a List.mem_cons_self
      rw [List.flatMap_cons, List.append_assoc, Attribute.keyFrom_passed hname hvalue]
      exact ih (fun b hb => h b (List.mem_cons_of_mem a hb)) false

variable {t}

theorem Quiet.of_supplier? {a : Attribute} (h : t.Quiet) (ha : t.supplier? = some a) :
    a.Supplies ∧ ∃ before after, t.attributes = before ++ a :: after ∧
      ∀ b ∈ before, ¬ b.Supplies ∧ b.Quiet := by
  obtain ⟨hsupplies, before, after, hsplit, hbefore⟩ := List.find?_eq_some_iff_append.1 ha
  have hbefore' : ∀ b ∈ before, ¬ b.Supplies := by simpa using hbefore
  refine ⟨by simpa using hsupplies, before, after, hsplit, fun b hb => ⟨hbefore' b hb, h b ?_⟩⟩
  rw [hsplit, List.takeWhile_append_of_pos (by simpa using hbefore')]
  exact List.mem_append_left _ hb

theorem keyFrom_supplier {before : List Attribute} {a : Attribute}
    (hbefore : ∀ b ∈ before, ¬ b.Supplies ∧ b.Quiet) (ha : a.Supplies) (s : List Char) :
    keyFrom true (before.flatMap Attribute.written ++ (a.opening ++ s)) =
      quotedValue? (a.quote :: s) := by
  obtain ⟨starts, hpassed⟩ := keyFrom_passed hbefore true (a.opening ++ s)
  rw [hpassed, Attribute.keyFrom_opening ha]

theorem Quiet.keyAttribute?_written (h : t.Quiet) :
    keyAttribute? t.written = t.supplier?.map (·.raw) := by
  rw [keyAttribute?_eq, written]
  cases ha : t.supplier? with
  | none =>
      have hnames : ∀ a ∈ t.attributes, ¬ a.Supplies := by
        simpa [supplier?] using ha
      have hvalues : ∀ a ∈ t.attributes, a.Quiet := by
        rw [Quiet, List.takeWhile_eq_self_iff.2 (by simpa using hnames)] at h
        exact h
      obtain ⟨starts, hpassed⟩ :=
        keyFrom_passed (fun a ha => ⟨hnames a ha, hvalues a ha⟩) true t.space
      rw [hpassed]
      exact keyFrom_of_not_mem (not_mem_of_blank t.blank (by decide)) starts
  | some a =>
      obtain ⟨hsupplies, before, after, hsplit, hbefore⟩ := h.of_supplier? ha
      have hread := keyFrom_supplier hbefore hsupplies
        (a.raw ++ a.quote :: (after.flatMap Attribute.written ++ t.space))
      rw [Attribute.quotedValue?_written] at hread
      rw [hsplit, List.flatMap_append, List.flatMap_cons, Option.map_some, ← hread]
      simp only [Attribute.written, List.append_assoc, List.cons_append, List.nil_append]

/-- A value that looks like the attribute `key` decides, where no attribute before it does. -/
theorem keyAttribute?_mistaken {before after : List Attribute} {a : Attribute}
    (hsplit : t.attributes = before ++ a :: after)
    (hbefore : ∀ b ∈ before, ¬ b.Supplies ∧ b.Quiet) (hname : ¬ a.Supplies) (hvalue : ¬ a.Quiet) :
    ∃ shown value, a.raw = shown ++ '=' :: value ∧
      keyAttribute? t.written = quotedValue? ((value ++
        a.quote :: (after.flatMap Attribute.written ++ t.space)).dropWhile Text.isWhite) := by
  obtain ⟨shown, value, hraw, hread⟩ := Offers.keyFrom (not_not.1 hvalue)
  let rest := a.quote :: (after.flatMap Attribute.written ++ t.space)
  obtain ⟨starts, hpassed⟩ := keyFrom_passed hbefore true (a.opening ++ (a.raw ++ rest))
  have hwritten : t.written =
      before.flatMap Attribute.written ++ (a.opening ++ (a.raw ++ rest)) := by
    simp [written, hsplit, Attribute.written, rest]
  refine ⟨shown, value, hraw, ?_⟩
  rw [keyAttribute?_eq, hwritten, hpassed, Attribute.keyFrom_name_passed hname, hread]

theorem supplier_of_unambiguous {as : List Attribute}
    (h : ∀ a ∈ as.takeWhile (·.name ≠ "key".toList), ¬ a.Supplies ∧ a.Quiet) :
    as.find? Attribute.Supplies = as.find? (·.name = "key".toList) ∧
      as.takeWhile (¬ Attribute.Supplies ·) = as.takeWhile (·.name ≠ "key".toList) := by
  induction as with
  | nil => exact ⟨rfl, rfl⟩
  | cons a as ih =>
      by_cases hname : a.name = "key".toList
      · have hsupplies := Attribute.supplies_of_name_key hname
        simp only [List.find?_cons, List.takeWhile_cons, hname, hsupplies, decide_true, not_true,
          ne_eq, decide_false, Bool.false_eq_true, if_false, and_self]
      · have hfirst : a ∈ (a :: as).takeWhile (·.name ≠ "key".toList) := by
          rw [List.takeWhile_cons_of_pos (by simpa using hname)]
          exact List.mem_cons_self
        rw [List.takeWhile_cons_of_pos (by simpa using hname)] at h
        obtain ⟨hfind, htake⟩ := ih fun b hb => h b (List.mem_cons_of_mem a hb)
        have hsupplies := (h a List.mem_cons_self).1
        rw [List.find?_cons_of_neg (by simpa using hsupplies),
          List.find?_cons_of_neg (by simpa using hname),
          List.takeWhile_cons_of_pos (by simpa using hsupplies),
          List.takeWhile_cons_of_pos (by simpa using hname), htake]
        exact ⟨hfind, rfl⟩

theorem Unambiguous.supplier?_eq (h : t.Unambiguous) : t.supplier? = t.key? :=
  (supplier_of_unambiguous h).1

theorem Unambiguous.quiet (h : t.Unambiguous) : t.Quiet := by
  rw [Quiet, (supplier_of_unambiguous h).2]
  exact fun a ha => (h a ha).2

variable (t)

theorem not_mem_written {m : Char} (hm : m ∈ brackets) (h : ∀ a ∈ t.attributes, m ∉ a.raw) :
    m ∉ t.written := by
  refine List.not_mem_append (fun hmem => ?_) (bracket_not_mem_of_blank hm t.blank)
  obtain ⟨a, ha, hmem⟩ := List.mem_flatMap.1 hmem
  exact a.not_mem_written hm (h a ha) hmem

theorem lt_not_mem_written : '<' ∉ t.written :=
  t.not_mem_written (by decide) fun a _ => a.escaped.not_mem

theorem endsName_written {s : List Char} (hs : endsName s.head? = true) :
    endsName (t.written ++ s).head? = true := by
  have hblank : ∀ c ∈ spaces, endsName (some c) = true := forall_of_all (by decide)
  rw [written]
  cases hattributes : t.attributes with
  | nil =>
      cases hspace : t.space with
      | nil => exact hs
      | cons c space => exact hblank c (t.blank c (hspace ▸ List.mem_cons_self))
  | cons a as =>
      obtain ⟨c, space, hspace⟩ := List.exists_cons_of_ne_nil a.apart
      rw [List.flatMap_cons, Attribute.written, Attribute.opening, hspace]
      exact hblank c (a.blank_space c (hspace ▸ List.mem_cons_self))

theorem getLast?_written : t.written.getLast? ≠ some '/' := by
  rw [written]
  rcases t.space.eq_nil_or_concat' with hspace | ⟨space, c, hspace⟩
  · rw [hspace, List.append_nil]
    rcases t.attributes.eq_nil_or_concat' with hattributes | ⟨as, a, hattributes⟩
    · simp [hattributes]
    · have hlast : a.written.getLast? = some a.quote := by
        simp [Attribute.written, List.getLast?_append, List.getLast?_cons]
      rw [hattributes, List.flatMap_append, List.flatMap_singleton, List.getLast?_append, hlast]
      intro hquote
      rcases a.quoting with hq | hq <;> rw [hq] at hquote <;> cases hquote
  · rw [hspace, ← List.append_assoc, List.getLast?_concat]
    intro hc
    have hmem : '/' ∈ t.space := by
      rw [hspace, Option.some.inj hc]
      exact List.mem_append_right space List.mem_cons_self
    exact not_mem_of_blank t.blank (by decide) hmem

theorem dropEndWhile_written : Text.dropEndWhile (· = '/') t.written = t.written := by
  rcases t.written.eq_nil_or_concat' with hwritten | ⟨s, c, hwritten⟩
  · rw [hwritten]
    rfl
  · have hc : c ≠ '/' := by
      rintro rfl
      exact t.getLast?_written (by rw [hwritten, List.getLast?_concat])
    rw [hwritten, Text.dropEndWhile_concat (by simpa using hc)]

end StartTag

end LayeredConfig.Format.Xml
