import LayeredConfig.Format.Xml
import LayeredConfig.Proofs.Literal.Integer
import Mathlib.Tactic.SplitIfs

/-!
What an XML document is written from is what is read from it. An encoded character is itself or a
reference (`Spelling`), so an encoded text holds no sign by which a comment, a tag or a quotation
starts or ends; each of the searches of reading therefore stops at the markup that was written.
-/

namespace LayeredConfig.Format.Xml

open Text (splitFirst? splitLast? dropPrefix? splitFirst?_cons splitFirst?_skip splitFirst?_append
  splitFirst?_of_not_mem splitLast?_append forall_of_all)

theorem unescape_eq (s : List Char) :
    unescape s =
      match splitFirst? ['&'] s with
      | none => .ok s
      | some (before, after) =>
        match splitFirst? [';'] after with
        | none => .error .openReference
        | some (name, rest) =>
          match characterNamed name with
          | none => .error (.unknownReference name)
          | some c => (fun t => before ++ c :: t) <$> unescape rest := by
  rw [unescape]
  split
  · rename_i hamp
    rw [hamp]
  · rename_i before after hamp
    rw [hamp]
    split
    · rename_i hsemi
      simp only [hsemi]
    · rename_i name rest hsemi
      simp only [hsemi]
      cases characterNamed name with
      | none => rfl
      | some c => exact bind_pure_comp _ _

theorem unescape_of_splitFirst?_none {s : List Char} (h : splitFirst? ['&'] s = none) :
    unescape s = .ok s := by
  rw [unescape_eq, h]

theorem unescape_of_splitFirst? {s before after name rest : List Char} {c : Char}
    (hamp : splitFirst? ['&'] s = some (before, after))
    (hsemi : splitFirst? [';'] after = some (name, rest)) (hname : characterNamed name = some c) :
    unescape s = (fun t => before ++ c :: t) <$> unescape rest := by
  rw [unescape_eq, hamp]
  simp only [hsemi, hname]

def markup : List Char := ['&', '<', '>', '"', '\'']

/-- The forms that an encoded character takes. -/
inductive Spelling (c : Char) : List Char → Prop
  | plain (clean : c ∉ markup) : Spelling c [c]
  | reference (name : List Char) (clean : ∀ d ∈ name, d ∉ markup) (noEnd : ';' ∉ name)
      (named : characterNamed name = some c) : Spelling c ('&' :: (name ++ [';']))

theorem characterNamed_sign (digits : List Char) :
    characterNamed ('#' :: digits) =
      (match dropPrefix? ['x'] digits with
        | some digits => (Literal.readNatural 16 0xFFFFFFFF digits).toOption
        | none => (Literal.readNatural 10 0xFFFFFFFF digits).toOption).bind fun n =>
          if n.isValidChar then some (Char.ofNat n) else none := by
  have hne {s : List Char} (hs : s.head? ≠ some '#') : '#' :: digits ≠ s := by
    rintro rfl
    exact hs rfl
  rw [characterNamed, if_neg (hne (by decide)), if_neg (hne (by decide)),
    if_neg (hne (by decide)), if_neg (hne (by decide)), if_neg (hne (by decide))]
  have hhex : dropPrefix? ['#', 'x'] ('#' :: digits) = dropPrefix? ['x'] digits := rfl
  rw [hhex]
  cases dropPrefix? ['x'] digits <;> rfl

theorem toNat_lt_of_isControl {c : Char} (h : isControl c = true) : c.toNat < 160 := by
  simp only [isControl, Bool.or_eq_true, Bool.and_eq_true, decide_eq_true_eq] at h
  omega

theorem characterNamed_hex {c : Char} (h : isControl c = true) :
    characterNamed ("#x".toList ++ Nat.toDigits 16 c.toNat) = some c := by
  have hbound := toNat_lt_of_isControl h
  have hread : Literal.readNatural 16 0xFFFFFFFF (Nat.toDigits 16 c.toNat) = .ok c.toNat :=
    Literal.readNatural_toDigits (by omega) (by omega) (by omega)
  have hchar : c.toNat.isValidChar := c.valid
  have hlist : "#x".toList = ['#', 'x'] := rfl
  rw [hlist, List.cons_append, List.singleton_append, characterNamed_sign]
  simp only [dropPrefix?, if_true, hread, Except.toOption, Option.bind_some, hchar,
    Char.ofNat_toNat]

theorem hex_clean {n : Nat} {d : Char} (hd : d ∈ "#x".toList ++ Nat.toDigits 16 n) :
    d ∉ markup ∧ d ≠ ';' := by
  rcases List.mem_append.1 hd with hd | hd
  · have hall : ∀ d ∈ "#x".toList, d ∉ markup ∧ d ≠ ';' := forall_of_all (by decide)
    exact hall d hd
  · have hdigit := (Literal.denotes_toDigits (by omega) (Nat.le_refl 16) n).digit hd
    have hall : ∀ d ∈ ';' :: markup, Literal.digitValue? 16 d = none :=
      forall_of_all (by decide)
    constructor
    · intro hmarkup
      exact hdigit (hall d (List.mem_cons_of_mem _ hmarkup))
    · rintro rfl
      exact hdigit (hall ';' List.mem_cons_self)

theorem spelling_escapeChar (c : Char) : Spelling c (escapeChar c) := by
  unfold escapeChar
  split_ifs with hamp hlt hgt hquot hapos hcontrol
  · subst hamp
    exact .reference "amp".toList (forall_of_all (by decide)) (by decide) rfl
  · subst hlt
    exact .reference "lt".toList (forall_of_all (by decide)) (by decide) rfl
  · subst hgt
    exact .reference "gt".toList (forall_of_all (by decide)) (by decide) rfl
  · subst hquot
    exact .reference "quot".toList (forall_of_all (by decide)) (by decide) rfl
  · subst hapos
    exact .reference "apos".toList (forall_of_all (by decide)) (by decide) rfl
  · exact .reference _ (fun d hd => (hex_clean hd).1) (fun hend => (hex_clean hend).2 rfl)
      (characterNamed_hex hcontrol.1)
  · refine .plain ?_
    simp only [markup, List.mem_cons, List.not_mem_nil, or_false, not_or]
    exact ⟨hamp, hlt, hgt, hquot, hapos⟩

theorem Spelling.not_mem {c m : Char} {w : List Char} (h : Spelling c w) (hm : m ∈ markup)
    (hamp : m ≠ '&') : m ∉ w := by
  cases h with
  | plain clean =>
      intro hmem
      exact clean (List.mem_singleton.1 hmem ▸ hm)
  | reference name clean noEnd named =>
      have hsemi : m ≠ ';' := fun hsemi => absurd (hsemi ▸ hm) (by decide)
      intro hmem
      rcases List.mem_cons.1 hmem with hmem | hmem
      · exact hamp hmem
      · rcases List.mem_append.1 hmem with hmem | hmem
        · exact clean m hmem hm
        · exact hsemi (List.mem_singleton.1 hmem)

theorem not_mem_escape {m : Char} (hm : m ∈ markup) (hamp : m ≠ '&') (s : List Char) :
    m ∉ escape s := by
  intro hmem
  obtain ⟨c, -, hc⟩ := List.mem_flatMap.1 hmem
  exact (spelling_escapeChar c).not_mem hm hamp hc

theorem unescape_append_escape (s : List Char) {before : List Char} (h : '&' ∉ before) :
    unescape (before ++ escape s) = .ok (before ++ s) := by
  -- The text before the first reference is copied, so the induction carries it along.
  induction s generalizing before with
  | nil =>
      rw [escape, List.flatMap_nil, List.append_nil]
      exact unescape_of_splitFirst?_none (splitFirst?_of_not_mem h [])
  | cons c s ih =>
      have hw := spelling_escapeChar c
      rw [escape, List.flatMap_cons]
      generalize escapeChar c = w at hw
      cases hw with
      | plain clean =>
          have hc : '&' ≠ c := fun hc => clean (hc ▸ by decide)
          have hbefore : '&' ∉ before ++ [c] :=
            List.not_mem_append h (by simpa only [List.mem_singleton] using hc)
          have hrest := ih hbefore
          rwa [List.append_assoc, List.append_assoc] at hrest
      | reference name clean noEnd named =>
          have hrest : unescape (escape s) = .ok s := ih List.not_mem_nil
          have hsplit := unescape_of_splitFirst?
            (splitFirst?_append h [] (name ++ ([';'] ++ escape s)))
            (splitFirst?_append noEnd [] (escape s)) named
          rw [hrest] at hsplit
          rw [List.cons_append, List.append_assoc]
          exact hsplit

theorem unescape_escape (s : List Char) : unescape (escape s) = .ok s :=
  unescape_append_escape s List.not_mem_nil

theorem keyAttribute?_of_rendered {key : List Char} (h : '"' ∉ key) :
    keyAttribute? (" key=\"".toList ++ (key ++ ['"'])) = some key := by
  have hkey : splitFirst? "key".toList (" key=\"".toList ++ (key ++ ['"'])) =
      some ([' '], '=' :: '"' :: (key ++ ['"'])) := rfl
  have hquote : splitFirst? ['"'] (key ++ ['"']) = some (key, []) := splitFirst?_append h [] []
  rw [keyAttribute?]
  split
  · rename_i hsplit
    rw [hkey] at hsplit
    cases hsplit
  · rename_i before after hsplit
    rw [hkey] at hsplit
    cases hsplit
    change (splitFirst? ['"'] (key ++ ['"'])).map (·.1) = some key
    rw [hquote]
    rfl

theorem bodyEntries_eq (s : List Char) :
    bodyEntries s =
      match splitFirst? "<entry".toList s with
      | none => .ok []
      | some (_, afterName) =>
        if endsName afterName.head? then
          match splitFirst? ['>'] afterName with
          | none => .error .openEntryTag
          | some (tag, afterTag) =>
            match keyAttribute? (Text.dropEndWhile (· = '/') tag) with
            | none => .error .noKey
            | some rawKey =>
              unescape rawKey >>= fun key =>
                if tag.getLast? = some '/' then
                  ((String.ofList key, "") :: ·) <$> bodyEntries afterTag
                else
                  match splitFirst? "</entry>".toList afterTag with
                  | none => .error (.openEntry key)
                  | some (content, rest) =>
                    unescape content >>= fun value =>
                      ((String.ofList key, String.ofList value) :: ·) <$> bodyEntries rest
        else bodyEntries afterName := by
  rw [bodyEntries]
  split
  · rename_i hname
    rw [hname]
  · rename_i before afterName hname
    rw [hname]
    dsimp only
    split_ifs with hends
    · split
      · rename_i htag
        rw [htag]
      · rename_i tag afterTag htag
        rw [htag]
        dsimp only
        cases keyAttribute? (Text.dropEndWhile (· = '/') tag) with
        | none => rfl
        | some rawKey =>
            refine bind_congr fun key => ?_
            split_ifs
            · exact bind_pure_comp _ _
            · split
              · rename_i hclose
                rw [hclose]
              · rename_i content rest hclose
                rw [hclose]
                exact bind_congr fun value => bind_pure_comp _ _
    · rfl

theorem bodyEntries_of_not_mem {s : List Char} (h : '<' ∉ s) : bodyEntries s = .ok [] := by
  have hnone : splitFirst? "<entry".toList s = none := splitFirst?_of_not_mem h _
  rw [bodyEntries_eq, hnone]

theorem bodyEntries_of_splitFirst? {s before afterName tag afterTag content rest : List Char}
    {rawKey key value : List Char}
    (hname : splitFirst? "<entry".toList s = some (before, afterName))
    (hends : endsName afterName.head? = true)
    (htag : splitFirst? ['>'] afterName = some (tag, afterTag))
    (hattribute : keyAttribute? (Text.dropEndWhile (· = '/') tag) = some rawKey)
    (hkey : unescape rawKey = .ok key) (hopen : tag.getLast? ≠ some '/')
    (hclose : splitFirst? "</entry>".toList afterTag = some (content, rest))
    (hvalue : unescape content = .ok value) :
    bodyEntries s = ((String.ofList key, String.ofList value) :: ·) <$> bodyEntries rest := by
  rw [bodyEntries_eq, hname]
  simp only [hends, htag, hattribute, hkey, hopen, hclose, hvalue, if_true, if_false]
  rfl

def entryTag (key : List Char) : List Char := (" key=\"".toList ++ escape key) ++ ['"']

theorem renderEntry_append (key value : String) (rest : List Char) :
    renderEntry key value ++ rest =
      "  ".toList ++ ("<entry".toList ++ (entryTag key.toList ++
        (['>'] ++ (escape value.toList ++ ("</entry>".toList ++ '\n' :: rest))))) := by
  have hstart : "  <entry key=\"".toList = "  ".toList ++ ("<entry".toList ++ " key=\"".toList) := by
    decide
  have htag : "\">".toList = ['"'] ++ ['>'] := by decide
  have hend : "</entry>\n".toList = "</entry>".toList ++ ['\n'] := by decide
  unfold renderEntry entryTag
  simp only [hstart, htag, hend, List.append_assoc, List.cons_append, List.nil_append]

theorem bodyEntries_renderEntry (key value : String) (rest : List Char) :
    bodyEntries ('\n' :: (renderEntry key value ++ rest)) =
      ((key, value) :: ·) <$> bodyEntries ('\n' :: rest) := by
  have hgt := not_mem_escape (m := '>') (by decide) (by decide) key.toList
  have hquot := not_mem_escape (m := '"') (by decide) (by decide) key.toList
  have hlt := not_mem_escape (m := '<') (by decide) (by decide) value.toList
  have htag : '>' ∉ entryTag key.toList :=
    List.not_mem_append (List.not_mem_append (by decide) hgt) (by decide)
  have hattribute : keyAttribute? (Text.dropEndWhile (· = '/') (entryTag key.toList)) =
      some (escape key.toList) := by
    unfold entryTag
    rw [Text.dropEndWhile_concat (by decide), List.append_assoc]
    exact keyAttribute?_of_rendered hquot
  have hopen : (entryTag key.toList).getLast? ≠ some '/' := by
    unfold entryTag
    rw [List.getLast?_concat]
    decide
  have hread := bodyEntries_of_splitFirst?
    (splitFirst?_append (a := "\n  ".toList) (m := '<') (by decide) "entry".toList _) rfl
    (splitFirst?_append htag [] (escape value.toList ++ ("</entry>".toList ++ '\n' :: rest)))
    hattribute (unescape_escape key.toList) hopen
    (splitFirst?_append hlt "/entry>".toList ('\n' :: rest)) (unescape_escape value.toList)
  rw [String.ofList_toList, String.ofList_toList] at hread
  rw [renderEntry_append]
  exact hread

theorem bodyEntries_renderEntries (entries : List (String × String)) :
    bodyEntries ('\n' :: entries.flatMap fun e => renderEntry e.1 e.2) = .ok entries := by
  induction entries with
  | nil => exact bodyEntries_of_not_mem (by decide)
  | cons e entries ih =>
      rw [List.flatMap_cons, bodyEntries_renderEntry, ih]
      rfl

def Uncommented (s : List Char) : Prop := splitFirst? "<!--".toList s = none

theorem Uncommented.skip {a s : List Char} (hs : Uncommented s) (h : '<' ∉ a) :
    Uncommented (a ++ s) := by
  have hskip := splitFirst?_skip h "!--".toList s
  change splitFirst? ('<' :: "!--".toList) s = none at hs
  rw [hs] at hskip
  exact hskip

theorem Uncommented.tag {c : Char} {s : List Char} (hs : Uncommented (c :: s)) (hc : c ≠ '!') :
    Uncommented ('<' :: c :: s) := by
  have hdrop : dropPrefix? "<!--".toList ('<' :: c :: s) = none :=
    Text.dropPrefix?_of_ne hc.symm "--".toList s
  have hcons := splitFirst?_cons hdrop
  rw [hs] at hcons
  exact hcons

theorem Uncommented.renderEntry {s : List Char} (hs : Uncommented s) (key value : String) :
    Uncommented (Xml.renderEntry key value ++ s) := by
  have hkey := not_mem_escape (m := '<') (by decide) (by decide) key.toList
  have hvalue := not_mem_escape (m := '<') (by decide) (by decide) value.toList
  have htag : '<' ∉ entryTag key.toList :=
    List.not_mem_append (List.not_mem_append (by decide) hkey) (by decide)
  have hclose : Uncommented ("</entry>".toList ++ '\n' :: s) :=
    (hs.skip (a := "/entry>\n".toList) (by decide)).tag (by decide)
  have hstart := (((hclose.skip hvalue).skip (a := ['>']) (by decide)).skip htag).skip
    (a := "entry".toList) (by decide)
  rw [renderEntry_append]
  exact (hstart.tag (by decide)).skip (by decide)

theorem stripComments_eq (s : List Char) :
    stripComments s =
      match splitFirst? "<!--".toList s with
      | none => .ok s
      | some (before, after) =>
        match splitFirst? "-->".toList ("<!--".toList ++ after) with
        | none => .error .openComment
        | some (_, rest) => (before ++ ·) <$> stripComments rest := by
  rw [stripComments]
  split
  · rename_i hopen
    rw [hopen]
  · rename_i before after hopen
    rw [hopen]
    split
    · rename_i hclose
      simp only [hclose]
    · rename_i comment rest hclose
      simp only [hclose]
      exact bind_pure_comp _ _

theorem stripComments_of_uncommented {s : List Char} (h : Uncommented s) :
    stripComments s = .ok s := by
  rw [stripComments_eq, h]

/-- The declaration before the root, after its first character. -/
def declaration : List Char := "?xml version=\"1.0\" encoding=\"UTF-8\"?>\n".toList

theorem lt_not_mem_declaration : '<' ∉ declaration := by decide

theorem renderEntries_eq (entries : List (String × String)) :
    renderEntries entries =
      '<' :: (declaration ++ ('<' :: "properties".toList ++
        ('>' :: '\n' :: ((entries.flatMap fun e => renderEntry e.1 e.2) ++ closing)))) := by
  have hopening : opening = '<' :: (declaration ++ ('<' :: "properties".toList ++ ['>', '\n'])) := by
    decide
  rw [renderEntries, hopening]
  simp only [List.cons_append, List.append_assoc, List.nil_append]

theorem uncommented_renderEntries (entries : List (String × String)) :
    Uncommented (renderEntries entries) := by
  have hclosing : Uncommented closing := rfl
  have hbody : Uncommented ((entries.flatMap fun e => Xml.renderEntry e.1 e.2) ++ closing) := by
    induction entries with
    | nil => exact hclosing
    | cons e entries ih =>
        rw [List.flatMap_cons, List.append_assoc]
        exact ih.renderEntry e.1 e.2
  have hroot := (hbody.skip (a := "properties>\n".toList) (by decide)).tag (by decide)
  rw [renderEntries_eq]
  exact (hroot.skip lt_not_mem_declaration).tag (c := '?') (by decide)

theorem rootBody_renderEntries (entries : List (String × String)) :
    rootBody (renderEntries entries) =
      .ok ('\n' :: entries.flatMap fun e => renderEntry e.1 e.2) := by
  let elements := entries.flatMap fun e => renderEntry e.1 e.2
  let body := '>' :: '\n' :: (elements ++ closing)
  -- The declaration starts like the root, but not with its name.
  have hdeclaration : splitFirst? "<properties".toList (renderEntries entries) =
      (splitFirst? "<properties".toList (declaration ++ ("<properties".toList ++ body))).map
        fun r => ('<' :: r.1, r.2) := by
    rw [renderEntries_eq]
    exact splitFirst?_cons rfl
  have hroot : splitFirst? "<properties".toList (declaration ++ ("<properties".toList ++ body)) =
      some (declaration, body) :=
    splitFirst?_append lt_not_mem_declaration "properties".toList body
  rw [hroot, Option.map_some] at hdeclaration
  have htag : splitFirst? ['>'] ('>' :: '\n' :: (elements ++ closing)) =
      some ([], '\n' :: (elements ++ closing)) :=
    splitFirst?_append List.not_mem_nil [] _
  have hclose : splitLast? "</properties>".toList ('\n' :: (elements ++ closing)) =
      some ('\n' :: elements, ['\n']) :=
    splitLast?_append (m := '>') (by decide) (by decide) ('\n' :: elements)
  unfold rootBody
  simp only [hdeclaration, body, htag, hclose]
  rfl

theorem entriesOf_renderEntries (entries : List (String × String)) :
    entriesOf (renderEntries entries) = .ok entries := by
  unfold entriesOf
  rw [stripComments_of_uncommented (uncommented_renderEntries entries)]
  change rootBody (renderEntries entries) >>= bodyEntries = _
  rw [rootBody_renderEntries]
  exact bodyEntries_renderEntries entries

theorem parse_renderEntries (entries : List (String × String)) :
    parse (String.ofList (renderEntries entries)) = .ok (.ofList entries) := by
  rw [parse, String.toList_ofList, entriesOf_renderEntries]

/-- Whatever the texts are, the document with the elements of entries is read as these entries, the
last one under each key counting; so a written map is read back as it is. -/
theorem parse_rendered_elements :
    (∀ entries : List (String × String),
      ∃ m, parse (String.ofList
          (opening ++ (entries.flatMap fun e => renderEntry e.1 e.2) ++ closing)) = .ok m ∧
        ∀ key, m.get? key = KeyMap.lookup key entries.reverse) ∧
    ∀ m : KeyMap String, parse (render m) = .ok m := by
  constructor
  · intro entries
    exact ⟨.ofList entries, parse_renderEntries entries, KeyMap.get?_ofList entries⟩
  · intro m
    rw [render, parse_renderEntries, KeyMap.ofList_entries]

end LayeredConfig.Format.Xml
