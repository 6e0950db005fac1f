import LayeredConfig.Proofs.Flat.Lines
import Mathlib.Tactic.SplitIfs

/-!
What a flat document is written from is what is read from it. An encoded character is a pair of a
backslash and a letter, or itself (`Spelling`); in either form no stage of reading takes it for a
line break, a blank, a separator, a comment or a continuation.
-/

namespace LayeredConfig.Format.Flat

theorem unescape_plain {c : Char} (h : c ≠ '\\') (rest : List Char) :
    unescape (c :: rest) = (c :: ·) <$> unescape rest := by
  rw [unescape]
  · exact bind_pure_comp _ _
  · intro hc
    exact absurd hc h
  · intro rest' hc
    exact absurd hc h
  · intro d rest' hc
    exact absurd hc h

/-- The forms that an encoded character takes. -/
inductive Spelling (isKey isFirst : Bool) (c : Char) : List Char → Prop
  | plain (unescaped : c ≠ '\\') (noFeed : c ≠ '\n') (noReturn : c ≠ '\r')
      (noBlank : isKey ∨ isFirst → Text.isBlank c = false)
      (noSign : isKey → c ≠ '=' ∧ c ≠ ':' ∧ c ≠ '#' ∧ c ≠ '!') : Spelling isKey isFirst c [c]
  | pair (d : Char) (noFeed : d ≠ '\n') (noReturn : d ≠ '\r')
      (decoded : ∀ rest, unescape ('\\' :: d :: rest) = (c :: ·) <$> unescape rest) :
      Spelling isKey isFirst c ['\\', d]

theorem spelling_escapeChar (isKey isFirst : Bool) (c : Char) :
    Spelling isKey isFirst c (escapeChar isKey isFirst c) := by
  unfold escapeChar
  split_ifs with hback htab hfeed hret hform hspace hsign
  · subst hback
    exact .pair _ (by decide) (by decide) fun rest => by simp [unescape]
  · subst htab
    exact .pair _ (by decide) (by decide) fun rest => by simp [unescape]
  · subst hfeed
    exact .pair _ (by decide) (by decide) fun rest => by simp [unescape]
  · subst hret
    exact .pair _ (by decide) (by decide) fun rest => by simp [unescape]
  · subst hform
    exact .pair _ (by decide) (by decide) fun rest => by simp [unescape]
  · obtain ⟨rfl, -⟩ := hspace
    exact .pair _ (by decide) (by decide) fun rest => by simp [unescape]
  · obtain ⟨-, rfl | rfl | rfl | rfl⟩ := hsign
    all_goals exact .pair _ (by decide) (by decide) fun rest => by simp [unescape]
  · refine .plain hback hfeed hret ?_ ?_
    · intro hwhere
      have hspace' : c ≠ ' ' := fun h => hspace ⟨h, hwhere⟩
      simp [Text.isBlank, hspace', htab, hform]
    · intro hkey
      simpa [hkey] using hsign

namespace Spelling

variable {isKey isFirst : Bool} {c : Char} {w : List Char}

theorem not_mem (h : Spelling isKey isFirst c w) : '\n' ∉ w ∧ '\r' ∉ w := by
  cases h with
  | plain unescaped noFeed noReturn noBlank noSign =>
      simp only [List.mem_singleton]
      exact ⟨noFeed.symm, noReturn.symm⟩
  | pair d noFeed noReturn decoded =>
      simp only [List.mem_cons, List.not_mem_nil, or_false, not_or]
      exact ⟨⟨by decide, noFeed.symm⟩, by decide, noReturn.symm⟩

theorem unescape_append (h : Spelling isKey isFirst c w) (rest : List Char) :
    unescape (w ++ rest) = (c :: ·) <$> unescape rest := by
  cases h with
  | plain unescaped noFeed noReturn noBlank noSign => exact unescape_plain unescaped rest
  | pair d noFeed noReturn decoded => exact decoded rest

theorem not_continues (h : Spelling isKey isFirst c w) {s : List Char}
    (hs : continues s = false) : continues (s ++ w) = false := by
  cases h with
  | plain unescaped noFeed noReturn noBlank noSign => simp [unescaped]
  | pair d noFeed noReturn decoded =>
      rw [show s ++ ['\\', d] = (s ++ ['\\']) ++ [d] by simp, continues_concat, continues_concat, hs]
      simp

theorem head_not_blank (h : Spelling isKey isFirst c w) (hwhere : isKey ∨ isFirst)
    (rest : List Char) : dropBlanks (w ++ rest) = w ++ rest := by
  cases h with
  | plain unescaped noFeed noReturn noBlank noSign =>
      rw [List.singleton_append, dropBlanks, List.dropWhile_cons_of_neg]
      simp [noBlank hwhere]
  | pair d noFeed noReturn decoded => rfl

theorem not_ignored (h : Spelling true isFirst c w) (rest : List Char) :
    isIgnored (w ++ rest) = false := by
  cases h with
  | plain unescaped noFeed noReturn noBlank noSign =>
      obtain ⟨-, -, hhash, hbang⟩ := noSign rfl
      simp [isIgnored, hhash, hbang]
  | pair d noFeed noReturn decoded => rfl

theorem splitEntry_append (h : Spelling true isFirst c w) (rest : List Char) :
    splitEntry (w ++ rest) = (w ++ (splitEntry rest).1, (splitEntry rest).2) := by
  cases h with
  | plain unescaped noFeed noReturn noBlank noSign =>
      obtain ⟨hequals, hcolon, -, -⟩ := noSign rfl
      rw [List.singleton_append, splitEntry]
      · simp [hequals, hcolon, noBlank (.inl rfl)]
      · intro hc
        exact absurd hc unescaped
      · intro d rest' hc
        exact absurd hc unescaped
  | pair d noFeed noReturn decoded => rfl

end Spelling

theorem not_mem_flatMap (isKey isFirst : Bool) (s : List Char) :
    '\n' ∉ s.flatMap (escapeChar isKey isFirst) ∧ '\r' ∉ s.flatMap (escapeChar isKey isFirst) := by
  have hchar := fun c => (spelling_escapeChar isKey isFirst c).not_mem
  simp only [List.mem_flatMap, not_exists, not_and]
  exact ⟨fun c _ => (hchar c).1, fun c _ => (hchar c).2⟩

theorem unescape_flatMap (isKey isFirst : Bool) (s : List Char) :
    unescape (s.flatMap (escapeChar isKey isFirst)) = .ok s := by
  induction s with
  | nil => rw [List.flatMap_nil, unescape]
  | cons c s ih =>
      rw [List.flatMap_cons, (spelling_escapeChar isKey isFirst c).unescape_append, ih]
      rfl

theorem not_continues_flatMap (isKey isFirst : Bool) (s : List Char) {line : List Char}
    (h : continues line = false) :
    continues (line ++ s.flatMap (escapeChar isKey isFirst)) = false := by
  induction s generalizing line with
  | nil => rwa [List.flatMap_nil, List.append_nil]
  | cons c s ih =>
      rw [List.flatMap_cons, ← List.append_assoc]
      exact ih ((spelling_escapeChar isKey isFirst c).not_continues h)

theorem splitEntry_escapeKey (key rest : List Char) :
    splitEntry (escapeKey key ++ '=' :: rest) = (escapeKey key, dropBlanks rest) := by
  induction key with
  | nil => rfl
  | cons c key ih =>
      change splitEntry ((escapeChar true false c ++ escapeKey key) ++ '=' :: rest) = _
      rw [List.append_assoc, (spelling_escapeChar true false c).splitEntry_append, ih]
      rfl

theorem unescape_escapeKey (key : List Char) : unescape (escapeKey key) = .ok key :=
  unescape_flatMap true false key

theorem unescape_escapeValue (value : List Char) : unescape (escapeValue value) = .ok value := by
  cases value with
  | nil => rw [escapeValue, unescape]
  | cons c cs =>
      rw [escapeValue, (spelling_escapeChar false true c).unescape_append, unescape_flatMap]
      rfl

theorem dropBlanks_escapeValue (value : List Char) :
    dropBlanks (escapeValue value) = escapeValue value := by
  cases value with
  | nil => rfl
  | cons c cs => exact (spelling_escapeChar false true c).head_not_blank (.inr rfl) _

theorem not_mem_escapeValue (value : List Char) :
    '\n' ∉ escapeValue value ∧ '\r' ∉ escapeValue value := by
  cases value with
  | nil => exact ⟨List.not_mem_nil, List.not_mem_nil⟩
  | cons c cs =>
      have hfirst := (spelling_escapeChar false true c).not_mem
      have hrest := not_mem_flatMap false false cs
      exact ⟨List.not_mem_append hfirst.1 hrest.1, List.not_mem_append hfirst.2 hrest.2⟩

theorem not_continues_escapeValue (value : List Char) {line : List Char}
    (h : continues line = false) : continues (line ++ escapeValue value) = false := by
  cases value with
  | nil => rwa [escapeValue, List.append_nil]
  | cons c cs =>
      rw [escapeValue, ← List.append_assoc]
      exact not_continues_flatMap false false cs
        ((spelling_escapeChar false true c).not_continues h)

def entryLine (key value : List Char) : List Char := escapeKey key ++ '=' :: escapeValue value

theorem entryLine_not_mem (key value : List Char) :
    '\n' ∉ entryLine key value ∧ '\r' ∉ entryLine key value := by
  have hkey := not_mem_flatMap true false key
  have hvalue := not_mem_escapeValue value
  refine ⟨List.not_mem_append hkey.1 ?_, List.not_mem_append hkey.2 ?_⟩
  · exact List.not_mem_cons_of_ne_of_not_mem (by decide) hvalue.1
  · exact List.not_mem_cons_of_ne_of_not_mem (by decide) hvalue.2

theorem dropBlanks_entryLine (key value : List Char) :
    dropBlanks (entryLine key value) = entryLine key value := by
  cases key with
  | nil => rfl
  | cons c cs =>
      rw [entryLine, escapeKey, List.flatMap_cons, List.append_assoc]
      exact (spelling_escapeChar true false c).head_not_blank (.inl rfl) _

theorem isIgnored_entryLine (key value : List Char) :
    isIgnored (entryLine key value) = false := by
  cases key with
  | nil => rfl
  | cons c cs =>
      rw [entryLine, escapeKey, List.flatMap_cons, List.append_assoc]
      exact (spelling_escapeChar true false c).not_ignored _

theorem continues_entryLine (key value : List Char) :
    continues (entryLine key value) = false := by
  have hsign : continues (escapeKey key ++ ['=']) = false := by simp
  have hvalue := not_continues_escapeValue value hsign
  rwa [List.append_assoc] at hvalue

theorem readEntry_entryLine (number : Nat) (key value : List Char) :
    readEntry ⟨number, entryLine key value⟩ =
      .ok (String.ofList key, String.ofList value) := by
  simp only [readEntry, entryLine, splitEntry_escapeKey, dropBlanks_escapeValue,
    unescape_escapeKey, unescape_escapeValue]

theorem renderEntry_eq (key value : String) :
    renderEntry key value = entryLine key.toList value.toList ++ ['\n'] := by
  simp [renderEntry, entryLine]

theorem physicalLines_renderEntries (entries : List (String × String)) :
    physicalLines (renderEntries entries) =
      entries.map fun e => entryLine e.1.toList e.2.toList := by
  induction entries with
  | nil => rfl
  | cons e entries ih =>
      have hline := entryLine_not_mem e.1.toList e.2.toList
      rw [renderEntries, List.flatMap_cons, renderEntry_eq, List.append_assoc, List.singleton_append,
        physicalLines_append hline.1, dropReturn_of_not_mem hline.2, List.map_cons]
      exact congrArg _ ih

theorem readEntries_entryLines (entries : List (String × String)) (number : Nat) :
    readEntries (logicalLines number none (entries.map fun e => entryLine e.1.toList e.2.toList)) =
      .ok entries := by
  induction entries generalizing number with
  | nil => rfl
  | cons e entries ih =>
      rw [List.map_cons, logicalLines_entry (dropBlanks_entryLine _ _) (isIgnored_entryLine _ _)
        (continues_entryLine _ _), readEntries, readEntry_entryLine, ih]
      simp only [String.ofList_toList]
      rfl

theorem entriesOf_renderEntries (entries : List (String × String)) :
    entriesOf (renderEntries entries) = .ok entries := by
  rw [entriesOf, physicalLines_renderEntries, readEntries_entryLines]

theorem parse_renderEntries (entries : List (String × String)) :
    parse (String.ofList (renderEntries entries)) = .ok (.ofList entries) := by
  rw [parse, String.toList_ofList, entriesOf_renderEntries]
  rfl

/-- Whatever the texts are, the lines of entries are read as these entries, the last one under each
key counting; so a written map is read back as it is. -/
theorem parse_rendered_lines :
    (∀ entries : List (String × String),
      ∃ m, parse (String.ofList (entries.flatMap fun e => renderEntry e.1 e.2)) = .ok m ∧
        ∀ key, m.get? key = KeyMap.lookup key entries.reverse) ∧
    ∀ m : KeyMap String, parse (render m) = .ok m := by
  constructor
  · intro entries
    exact ⟨.ofList entries, parse_renderEntries entries, KeyMap.get?_ofList entries⟩
  · intro m
    rw [render, parse_renderEntries, KeyMap.ofList_entries]

end LayeredConfig.Format.Flat
