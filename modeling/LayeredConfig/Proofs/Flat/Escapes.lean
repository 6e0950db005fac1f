import LayeredConfig.Proofs.Flat.Breaking
import LayeredConfig.Proofs.Flat.RoundTrip
import LayeredConfig.Proofs.Literal.Integer

/-!
Escapes by code. A part of an entry is read in pieces, each of which ends outside of an escape
(`Piece`), so the places where a code is expected are told by the parity of the backslashes alone.
A document is refused exactly if one of these places lacks a code that can be read.
-/

namespace LayeredConfig.Format.Flat

/-- So many hexadecimal digits, which are the number of a character. -/
def HexCode (count : Nat) (digits : List Char) (c : Char) : Prop :=
  digits.length = count ∧ Literal.Denotes 16 digits c.toNat

/-- Four characters that are read as the code of a character: its digits, of which a plus sign may
take the first place. -/
def Readable (digits : List Char) (c : Char) : Prop :=
  HexCode 4 digits c ∨ ∃ later, digits = '+' :: later ∧ HexCode 3 later c

theorem HexCode.lt {count : Nat} {digits : List Char} {c : Char} (h : HexCode count digits c) :
    c.toNat < 16 ^ count := by
  obtain ⟨rfl, hdigits⟩ := h
  exact hdigits.lt (by omega)

theorem HexCode.not_mem {count : Nat} {digits : List Char} {c : Char} (h : HexCode count digits c) :
    '\\' ∉ digits := fun hmem => h.2.digit hmem rfl

theorem Readable.length {digits : List Char} {c : Char} (h : Readable digits c) :
    digits.length = 4 := by
  rcases h with h | ⟨later, rfl, h⟩
  · exact h.1
  · rw [List.length_cons, h.1]

theorem Readable.not_mem {digits : List Char} {c : Char} (h : Readable digits c) :
    '\\' ∉ digits := by
  rcases h with h | ⟨later, rfl, h⟩
  · exact h.not_mem
  · exact List.not_mem_cons_of_ne_of_not_mem (by decide) h.not_mem

theorem readable_iff {digits : List Char} {c : Char} :
    Readable digits c ↔
      digits.length = 4 ∧ Literal.readNatural 16 0xFFFF digits = .ok c.toNat := by
  rw [Literal.readNatural_eq_ok_iff]
  constructor
  · intro h
    refine ⟨h.length, ?_⟩
    rcases h with h | ⟨later, rfl, h⟩
    · exact ⟨.inl h.2, Nat.le_of_lt_succ h.lt⟩
    · exact ⟨.inr ⟨later, rfl, h.2⟩, Nat.le_of_lt (Nat.lt_of_lt_of_le h.lt (by decide))⟩
  · rintro ⟨hlength, hdigits | ⟨later, rfl, hdigits⟩, -⟩
    · exact .inl ⟨hlength, hdigits⟩
    · exact .inr ⟨later, rfl, Nat.succ.inj hlength, hdigits⟩

theorem characterOf_eq_ok_iff {digits : List Char} {c : Char} :
    characterOf digits = .ok c ↔ Readable digits c := by
  rw [readable_iff, characterOf]
  cases Literal.readNatural 16 0xFFFF digits with
  | error fault => simp
  | ok code =>
      by_cases hlength : digits.length = 4
      · simp only [hlength, ne_eq, not_true_eq_false, if_false, true_and, Except.ok.injEq]
        constructor
        · intro h
          split at h
          · rename_i hvalid
            cases h
            rw [Char.ofNat, dif_pos hvalid]
            exact UInt32.toNat_ofNatLT.symm
          · cases h
        · rintro rfl
          have hvalid : c.toNat.isValidChar := c.valid
          rw [if_pos hvalid, Char.ofNat_toNat]
      · simp [hlength]

theorem unescape_code (rest : List Char) :
    unescape ('\\' :: 'u' :: rest) =
      (do return (← characterOf (rest.take 4)) :: (← unescape (rest.drop 4))) := by
  rw [unescape]

theorem exists_unescape_pair {d : Char} (h : d ≠ 'u') :
    ∃ c, ∀ rest, unescape ('\\' :: d :: rest) = (c :: ·) <$> unescape rest := by
  by_cases hletter : d = 't' ∨ d = 'n' ∨ d = 'r' ∨ d = 'f'
  · rcases hletter with rfl | rfl | rfl | rfl
    · exact ⟨'\t', fun rest => by simp [unescape]⟩
    · exact ⟨'\n', fun rest => by simp [unescape]⟩
    · exact ⟨'\r', fun rest => by simp [unescape]⟩
    · exact ⟨'\x0c', fun rest => by simp [unescape]⟩
  · simp only [not_or] at hletter
    exact ⟨d, fun rest => by simp [unescape, hletter]⟩

/-- The pieces in which a part is read: a character, a backslash and a letter, or a code. -/
inductive Piece : List Char → Char → Prop
  | plain {c} (unescaped : c ≠ '\\') : Piece [c] c
  | pair {d c} (noCode : d ≠ 'u')
      (decoded : ∀ rest, unescape ('\\' :: d :: rest) = (c :: ·) <$> unescape rest) :
      Piece ['\\', d] c
  | code {digits c} (readable : Readable digits c) : Piece ('\\' :: 'u' :: digits) c

theorem continues_of_not_mem {s : List Char} (h : '\\' ∉ s) : continues s = false := by
  induction s using List.reverseRecOn with
  | nil => rfl
  | append_singleton s c _ =>
      have hc : c ≠ '\\' := by
        rintro rfl
        exact h (List.mem_append_right s (List.mem_singleton_self _))
      rw [continues_concat, beq_eq_false_iff_ne.2 hc, Bool.false_and]

namespace Piece

variable {w : List Char} {c : Char}

theorem ne_nil (h : Piece w c) : w ≠ [] := by
  cases h <;> exact List.cons_ne_nil _ _

theorem unescape_append (h : Piece w c) (rest : List Char) :
    unescape (w ++ rest) = (c :: ·) <$> unescape rest := by
  cases h with
  | plain unescaped => exact unescape_plain unescaped rest
  | pair noCode decoded => exact decoded rest
  | code readable =>
      rw [List.cons_append, List.cons_append, unescape_code,
        List.take_left' readable.length, List.drop_left' readable.length,
        characterOf_eq_ok_iff.2 readable]
      exact bind_pure_comp (c :: ·) (unescape rest)

theorem not_continues (h : Piece w c) : continues w = false := by
  cases h with
  | @plain c unescaped =>
      exact continues_of_not_mem (mt List.mem_singleton.1 (Ne.symm unescaped))
  | @pair d c noCode decoded => exact continues_pair d
  | @code digits c readable =>
      have hstart : continues ['\\', 'u'] = false := rfl
      exact (continues_append hstart digits).trans (continues_of_not_mem readable.not_mem)

end Piece

theorem part_cases (s : List Char) :
    s = [] ∨ s = ['\\'] ∨ (∃ w c rest, Piece w c ∧ s = w ++ rest) ∨
      ∃ after fault, s = '\\' :: 'u' :: after ∧ characterOf (after.take 4) = .error fault := by
  rcases s with _ | ⟨c, s⟩
  · exact .inl rfl
  · by_cases hc : c = '\\'
    · subst hc
      rcases s with _ | ⟨d, s⟩
      · exact .inr (.inl rfl)
      · by_cases hd : d = 'u'
        · subst hd
          cases hcode : characterOf (s.take 4) with
          | error fault => exact .inr (.inr (.inr ⟨s, fault, rfl, hcode⟩))
          | ok c =>
              refine .inr (.inr (.inl ⟨'\\' :: 'u' :: s.take 4, c, s.drop 4, ?_, ?_⟩))
              · exact .code (characterOf_eq_ok_iff.1 hcode)
              · rw [List.cons_append, List.cons_append, List.take_append_drop]
        · obtain ⟨c, hdecoded⟩ := exists_unescape_pair hd
          exact .inr (.inr (.inl ⟨['\\', d], c, s, .pair hd hdecoded, rfl⟩))
    · exact .inr (.inr (.inl ⟨[c], c, s, .plain hc, rfl⟩))

/-- A backslash that no backslash escapes and a `u`, between the text before and after them. -/
structure EscapeAt (part before after : List Char) : Prop where
  split : part = before ++ '\\' :: 'u' :: after
  unescaped : continues before = false

/-- A piece is the escape at a place, or it ends before it. -/
theorem EscapeAt.of_piece {w rest before after : List Char} {c : Char}
    (h : EscapeAt (w ++ rest) before after) (hw : Piece w c) :
    (before = [] ∧ ∃ digits, w = '\\' :: 'u' :: digits ∧ Readable digits c) ∨
      ∃ between, before = w ++ between ∧ EscapeAt rest between after := by
  have hbetween (between : List Char) (hbefore : before = w ++ between) :
      EscapeAt rest between after := by
    obtain ⟨hsplit, hunescaped⟩ := h
    subst hbefore
    refine ⟨?_, ?_⟩
    · rwa [List.append_assoc, List.append_cancel_left_eq] at hsplit
    · rwa [continues_append hw.not_continues] at hunescaped
  obtain ⟨hsplit, hunescaped⟩ := h
  cases hw with
  | plain unescaped =>
      rcases before with _ | ⟨d, before⟩
      · exact absurd (List.cons.inj hsplit).1 unescaped
      · cases (List.cons.inj hsplit).1
        exact .inr ⟨before, rfl, hbetween before rfl⟩
  | pair noCode decoded =>
      rcases before with _ | ⟨d, _ | ⟨e, before⟩⟩
      · exact absurd (List.cons.inj (List.cons.inj hsplit).2).1 noCode
      · cases (List.cons.inj hsplit).1
        cases hunescaped
      · cases (List.cons.inj hsplit).1
        cases (List.cons.inj (List.cons.inj hsplit).2).1
        exact .inr ⟨before, rfl, hbetween before rfl⟩
  | @code digits c readable =>
      rcases before with _ | ⟨d, _ | ⟨e, before⟩⟩
      · exact .inl ⟨rfl, digits, rfl, readable⟩
      · cases (List.cons.inj hsplit).1
        cases hunescaped
      · cases (List.cons.inj hsplit).1
        cases (List.cons.inj (List.cons.inj hsplit).2).1
        have hrest : digits ++ rest = before ++ '\\' :: 'u' :: after :=
          (List.cons.inj (List.cons.inj hsplit).2).2
        rcases List.append_eq_append_iff.1 hrest with ⟨between, hbefore, -⟩ |
          ⟨between, hdigits, hlater⟩
        · rw [hbefore]
          exact .inr ⟨between, rfl, hbetween between (by rw [hbefore]; rfl)⟩
        · -- The backslash of the escape is no digit.
          rcases between with _ | ⟨d, between⟩
          · rw [List.append_nil] at hdigits
            subst hdigits
            exact .inr ⟨[], (List.append_nil _).symm, hbetween [] (List.append_nil _).symm⟩
          · cases (List.cons.inj hlater).1
            rw [hdigits] at readable
            exact absurd (List.mem_append_right before List.mem_cons_self) readable.not_mem

theorem exists_escapeAt_of_error {part : List Char} {fault : EscapeFault}
    (h : unescape part = .error fault) :
    ∃ before after, EscapeAt part before after ∧ (∃ out, unescape before = .ok out) ∧
      characterOf (after.take 4) = .error fault := by
  induction hlength : part.length using Nat.strongRecOn generalizing part with
  | _ n ih =>
      subst hlength
      rcases part_cases part with rfl | rfl | ⟨w, c, rest, hw, rfl⟩ | ⟨after, cause, rfl, hcause⟩
      · rw [unescape] at h
        cases h
      · rw [unescape] at h
        cases h
      · rw [hw.unescape_append] at h
        cases hrest : unescape rest with
        | ok out =>
            rw [hrest] at h
            cases h
        | error cause =>
            rw [hrest] at h
            cases h
            have hshort : rest.length < (w ++ rest).length := by
              have hpos := List.length_pos_of_ne_nil hw.ne_nil
              rw [List.length_append]
              omega
            obtain ⟨before, after, ⟨hsplit, hunescaped⟩, ⟨out, hout⟩, hcause⟩ :=
              ih rest.length hshort hrest rfl
            refine ⟨w ++ before, after, ⟨?_, ?_⟩, ⟨c :: out, ?_⟩, hcause⟩
            · rw [hsplit, List.append_assoc]
            · rw [continues_append hw.not_continues, hunescaped]
            · rw [hw.unescape_append, hout]
              rfl
      · rw [unescape_code, hcause] at h
        cases h
        exact ⟨[], after, ⟨rfl, rfl⟩, ⟨[], by rw [unescape]⟩, hcause⟩

theorem EscapeAt.decoded {part before after out : List Char} (h : EscapeAt part before after)
    (hout : unescape part = .ok out) :
    ∃ c start rest, Readable (after.take 4) c ∧ unescape before = .ok start ∧
      unescape (after.drop 4) = .ok rest ∧ out = start ++ c :: rest := by
  induction hlength : part.length using Nat.strongRecOn generalizing part before out with
  | _ n ih =>
      subst hlength
      rcases part_cases part with rfl | rfl | ⟨w, c, rest, hw, rfl⟩ | ⟨later, cause, rfl, hcause⟩
      · have hnil := congrArg List.length h.split
        simp only [List.length_append, List.length_cons, List.length_nil] at hnil
        omega
      · have hone := congrArg List.length h.split
        simp only [List.length_append, List.length_cons, List.length_nil] at hone
        omega
      · rw [hw.unescape_append] at hout
        cases hrest : unescape rest with
        | error cause =>
            rw [hrest] at hout
            cases hout
        | ok out =>
            rw [hrest] at hout
            cases hout
            rcases h.of_piece hw with ⟨rfl, digits, rfl, hreadable⟩ | ⟨between, rfl, hat⟩
            · have hafter : after = digits ++ rest :=
                (List.cons.inj (List.cons.inj h.split).2).2.symm
              rw [hafter, List.take_left' hreadable.length, List.drop_left' hreadable.length]
              exact ⟨c, [], out, hreadable, by rw [unescape], hrest, rfl⟩
            · have hshort : rest.length < (w ++ rest).length := by
                have hpos := List.length_pos_of_ne_nil hw.ne_nil
                rw [List.length_append]
                omega
              obtain ⟨d, start, later, hcode, hstart, hlater, hout⟩ :=
                ih rest.length hshort hat hrest rfl
              refine ⟨d, c :: start, later, hcode, ?_, hlater, congrArg (c :: ·) hout⟩
              rw [hw.unescape_append, hstart]
              rfl
      · rw [unescape_code, hcause] at hout
        cases hout

def LogicalLine.parts (l : LogicalLine) : List (List Char) :=
  [(splitEntry l.text).1, (splitEntry l.text).2]

/-- Some escape in a logical line is not followed, within its part, by the code of a character. -/
def LogicalLine.LacksCode (code : List Char → Char → Prop) (l : LogicalLine) : Prop :=
  ∃ part ∈ l.parts, ∃ before after, EscapeAt part before after ∧ ∀ c, ¬ code (after.take 4) c

/-- What a part is read as: each escape in it as the character with its code. -/
def ReadAs (part out : List Char) : Prop :=
  unescape part = .ok out ∧ ∀ before after, EscapeAt part before after →
    ∃ c start rest, Readable (after.take 4) c ∧ unescape before = .ok start ∧
      unescape (after.drop 4) = .ok rest ∧ out = start ++ c :: rest

def LogicalLine.EntryAs (l : LogicalLine) (entry : String × String) : Prop :=
  ReadAs (splitEntry l.text).1 entry.1.toList ∧ ReadAs (splitEntry l.text).2 entry.2.toList

theorem readAs_of_ok {part out : List Char} (h : unescape part = .ok out) : ReadAs part out :=
  ⟨h, fun _ _ hat => hat.decoded h⟩

theorem lacksCode_of_error {l : LogicalLine} {part : List Char} {fault : EscapeFault}
    (hpart : part ∈ l.parts) (h : unescape part = .error fault) : l.LacksCode Readable := by
  obtain ⟨before, after, hat, -, hcause⟩ := exists_escapeAt_of_error h
  refine ⟨part, hpart, before, after, hat, fun c hreadable => ?_⟩
  rw [characterOf_eq_ok_iff.2 hreadable] at hcause
  cases hcause

theorem LogicalLine.EntryAs.not_lacksCode {l : LogicalLine} {entry : String × String}
    (h : l.EntryAs entry) : ¬ l.LacksCode Readable := by
  rintro ⟨part, hpart, before, after, hat, hnone⟩
  have hread : ∃ out, ReadAs part out := by
    simp only [LogicalLine.parts, List.mem_cons, List.not_mem_nil, or_false] at hpart
    rcases hpart with rfl | rfl
    · exact ⟨_, h.1⟩
    · exact ⟨_, h.2⟩
  obtain ⟨out, -, hdecoded⟩ := hread
  obtain ⟨c, -, -, hreadable, -⟩ := hdecoded before after hat
  exact hnone c hreadable

theorem readEntry_eq (l : LogicalLine) :
    readEntry l =
      match unescape (splitEntry l.text).1, unescape (splitEntry l.text).2 with
      | .ok key, .ok value => .ok (String.ofList key, String.ofList value)
      | .error f, _ | _, .error f => .error (.line l.number f) := rfl

theorem readEntry_cases (l : LogicalLine) :
    (∃ entry, readEntry l = .ok entry ∧ l.EntryAs entry) ∨
      ∃ cause, readEntry l = .error (.line l.number cause) ∧ l.LacksCode Readable := by
  rw [readEntry_eq]
  cases hkey : unescape (splitEntry l.text).1 with
  | error cause => exact .inr ⟨cause, rfl, lacksCode_of_error List.mem_cons_self hkey⟩
  | ok key =>
      cases hvalue : unescape (splitEntry l.text).2 with
      | error cause =>
          have hpart : (splitEntry l.text).2 ∈ l.parts :=
            List.mem_cons_of_mem _ (List.mem_singleton_self _)
          exact .inr ⟨cause, rfl, lacksCode_of_error hpart hvalue⟩
      | ok value =>
          refine .inl ⟨(String.ofList key, String.ofList value), rfl, ?_, ?_⟩
          · rw [String.toList_ofList]
            exact readAs_of_ok hkey
          · rw [String.toList_ofList]
            exact readAs_of_ok hvalue

/-- Logical lines are read as entries, or the fault names the first one that lacks a code. -/
theorem readEntries_cases (lines : List LogicalLine) :
    (∃ entries, readEntries lines = .ok entries ∧ List.Forall₂ LogicalLine.EntryAs lines entries) ∨
      ∃ earlier l later cause, lines = earlier ++ l :: later ∧
        (∀ x ∈ earlier, ¬ x.LacksCode Readable) ∧ l.LacksCode Readable ∧
        readEntries lines = .error (.line l.number cause) := by
  induction lines with
  | nil => exact .inl ⟨[], rfl, .nil⟩
  | cons l lines ih =>
      rw [readEntries]
      rcases readEntry_cases l with ⟨entry, hread, hentry⟩ | ⟨cause, hread, hlacks⟩
      · rw [hread]
        rcases ih with ⟨entries, hreads, hentries⟩ |
          ⟨earlier, l', later, cause, rfl, hsound, hlacks, hreads⟩
        · rw [hreads]
          exact .inl ⟨entry :: entries, rfl, .cons hentry hentries⟩
        · rw [hreads]
          refine .inr ⟨l :: earlier, l', later, cause, rfl, ?_, hlacks, rfl⟩
          exact List.forall_mem_cons.2 ⟨hentry.not_lacksCode, hsound⟩
      · rw [hread]
        exact .inr ⟨[], l, lines, cause, rfl, fun x hx => absurd hx List.not_mem_nil, hlacks, rfl⟩

theorem opensAfter_append (opened : Bool) (lines rest : List (List Char)) :
    opensAfter opened (lines ++ rest) = opensAfter (opensAfter opened lines) rest :=
  List.foldl_append

theorem exists_first {n : Nat} {u : Option LogicalLine} {line : List Char}
    (hu : ∀ l ∈ u, continues l.text = false) (h : belongs u.isSome line = true)
    (lines : List (List Char)) :
    ∃ text used rest, lines = used ++ rest ∧
      logicalLines n u (line :: lines) =
        ⟨(joined n u line).number, text⟩ :: logicalLines (n + 1 + used.length) none rest ∧
      (rest ≠ [] → opensAfter u.isSome (line :: used) = false) := by
  induction lines generalizing n u line with
  | nil =>
      rw [logicalLines_belongs h]
      split
      · exact ⟨_, [], [], rfl, rfl, nofun⟩
      · exact ⟨_, [], [], rfl, rfl, nofun⟩
  | cons line' lines ih =>
      have hcontinues := continues_joined (n := n) hu line
      rw [logicalLines_belongs h, hcontinues]
      cases hline : continues line with
      | false =>
          refine ⟨_, [], line' :: lines, rfl, rfl, fun _ => ?_⟩
          change (belongs u.isSome line && continues line) = false
          rw [hline, Bool.and_false]
      | true =>
          rw [hline] at hcontinues
          have hdropped : ∀ l ∈ some (joined n u line).dropLast, continues l.text = false := by
            rintro l ⟨⟩
            exact continues_dropLast hcontinues
          obtain ⟨text, used, rest, rfl, hfirst, hopens⟩ :=
            ih (n := n + 1) hdropped (Bool.true_or _)
          refine ⟨text, line' :: used, rest, rfl, ?_, fun hrest => ?_⟩
          · rw [if_pos rfl, hfirst, List.length_cons, Nat.add_comm used.length, ← Nat.add_assoc]
            rfl
          · have hopened : (belongs u.isSome line && continues line) = true := by
              rw [h, hline]
              rfl
            change opensAfter (belongs u.isSome line && continues line) (line' :: used) = false
            rw [hopened]
            exact hopens hrest

/-- A logical line has the number of its first physical line, which starts an entry where none is
open; the lines before that one make up the logical lines before. -/
theorem exists_start {n : Nat} {lines : List (List Char)} {earlier later : List LogicalLine}
    {l : LogicalLine} (h : logicalLines n none lines = earlier ++ l :: later) :
    ∃ before line after, lines = before ++ line :: after ∧ opensAfter false before = false ∧
      belongs false line = true ∧ l.number = n + before.length ∧
      logicalLines n none before = earlier ∧
      logicalLines l.number none (line :: after) = l :: later := by
  induction hlength : lines.length using Nat.strongRecOn generalizing n lines earlier with
  | _ k ih =>
      subst hlength
      rcases lines with _ | ⟨line, lines⟩
      · exact absurd h.symm (List.append_ne_nil_of_right_ne_nil _ (List.cons_ne_nil _ _))
      · cases hbelongs : belongs false line with
        | false =>
            obtain ⟨-, hignored⟩ := eq_none_of_not_belongs (u := none) hbelongs
            rw [logicalLines_ignored hignored] at h
            obtain ⟨before, line', after, rfl, hclosed, hstarts, hnumber, hearlier, hlater⟩ :=
              ih lines.length (Nat.lt_succ_self _) h rfl
            refine ⟨line :: before, line', after, rfl, ?_, hstarts, ?_, ?_, hlater⟩
            · change opensAfter (belongs false line && continues line) before = false
              rwa [hbelongs, Bool.false_and]
            · rw [hnumber, List.length_cons, Nat.add_comm before.length, Nat.add_assoc]
            · rw [logicalLines_ignored hignored, hearlier]
        | true =>
            obtain ⟨text, used, rest, rfl, hfirst, hopens⟩ :=
              exists_first (n := n) (u := none) nofun hbelongs lines
            rcases earlier with _ | ⟨first, earlier⟩
            · have hl := hfirst.symm.trans h
              obtain ⟨rfl, -⟩ := List.cons.inj hl
              exact ⟨[], line, used ++ rest, rfl, rfl, hbelongs, rfl, rfl, h⟩
            · have hrest : logicalLines (n + 1 + used.length) none rest = earlier ++ l :: later :=
                (List.cons.inj (hfirst.symm.trans h)).2
              have hne : rest ≠ [] := by
                rintro rfl
                exact absurd hrest.symm
                  (List.append_ne_nil_of_right_ne_nil _ (List.cons_ne_nil _ _))
              have hclosed : opensAfter false (line :: used) = false := hopens hne
              have hcount : n + (line :: used).length = n + 1 + used.length := by
                rw [List.length_cons, Nat.add_comm used.length, Nat.add_assoc]
              -- The lines up to the end of the first entry make up this entry alone.
              have hone : logicalLines n none (line :: used) = [⟨n, text⟩] := by
                have hwhole : logicalLines n none (line :: used ++ rest) =
                    logicalLines n none (line :: used) ++
                      logicalLines (n + (line :: used).length) none rest :=
                  logicalLines_append (u := none) nofun hclosed
                rw [List.cons_append, hfirst, hcount, ← List.singleton_append] at hwhole
                exact (List.append_cancel_right hwhole).symm
              have hshort : rest.length < (line :: (used ++ rest)).length := by
                rw [List.length_cons, List.length_append]
                omega
              obtain ⟨before, line', after, rfl, hclosed', hstarts, hnumber, hearlier, hlater⟩ :=
                ih rest.length hshort hrest rfl
              refine ⟨line :: used ++ before, line', after, ?_, ?_, hstarts, ?_, ?_, hlater⟩
              · rw [List.append_assoc, List.cons_append]
              · rw [opensAfter_append, hclosed, hclosed']
              · rw [hnumber, ← hcount, List.length_append, Nat.add_assoc]
              · rw [logicalLines_append (u := none) nofun hclosed, hone, hcount, hearlier]
                exact congrArg (· :: earlier) (List.cons.inj (hfirst.symm.trans h)).1

def logicalLinesOf (text : String) : List LogicalLine :=
  logicalLines 1 none (physicalLines text.toList)

/-- Where a logical line starts in a text: at a physical line that starts an entry, where none is
open; what stands before makes up the logical lines before. -/
structure StartsAfter (text : String) (earlier : List LogicalLine) (before line after : List Char) :
    Prop where
  split : text.toList = before ++ (line ++ after)
  place : LineAt before line after
  closed : opensAfter false (physicalLines before) = false
  starts : belongs false line = true
  earlier_eq : logicalLines 1 none (physicalLines before) = earlier

theorem exists_startsAfter {text : String} {earlier later : List LogicalLine} {l : LogicalLine}
    (h : logicalLinesOf text = earlier ++ l :: later) :
    ∃ before line after, StartsAfter text earlier before line after ∧
      l.number = before.count '\n' + 1 := by
  obtain ⟨lines, line, rest, hlines, hclosed, hstarts, hnumber, hearlier, -⟩ := exists_start h
  obtain ⟨before, after, hsplit, hplace, rfl⟩ := exists_lineAt hlines
  refine ⟨before, line, after, ⟨hsplit, hplace, hclosed, hstarts, hearlier⟩, ?_⟩
  rw [hnumber, hplace.starts.length_physicalLines, Nat.add_comm]

theorem readable_take_iff {after : List Char} (h : after.head? ≠ some '+') (c : Char) :
    Readable (after.take 4) c ↔ HexCode 4 (after.take 4) c := by
  refine ⟨?_, .inl⟩
  rintro (hcode | ⟨later, hplus, -⟩)
  · exact hcode
  · rcases after with _ | ⟨d, after⟩
    · cases hplus
    · cases (List.cons.inj hplus).1
      exact absurd rfl h

/-- Where no plus sign follows an escape, a code is four digits. -/
theorem lacksCode_iff {l : LogicalLine}
    (h : ∀ part ∈ l.parts, ∀ before after, EscapeAt part before after → after.head? ≠ some '+') :
    l.LacksCode Readable ↔ l.LacksCode (HexCode 4) := by
  constructor
  · rintro ⟨part, hpart, before, after, hat, hnone⟩
    have hcode := readable_take_iff (h part hpart before after hat)
    exact ⟨part, hpart, before, after, hat, fun c => mt (hcode c).2 (hnone c)⟩
  · rintro ⟨part, hpart, before, after, hat, hnone⟩
    have hcode := readable_take_iff (h part hpart before after hat)
    exact ⟨part, hpart, before, after, hat, fun c => mt (hcode c).1 (hnone c)⟩

theorem parse_cases (text : String) :
    (∃ entries, parse text = .ok (.ofList entries) ∧
      List.Forall₂ LogicalLine.EntryAs (logicalLinesOf text) entries) ∨
      ∃ earlier l later cause, logicalLinesOf text = earlier ++ l :: later ∧
        (∀ x ∈ earlier, ¬ x.LacksCode Readable) ∧ l.LacksCode Readable ∧
        parse text = .error (.line l.number cause) := by
  have hparse : parse text =
      (do return KeyMap.ofList (← readEntries (logicalLinesOf text))) := rfl
  rw [hparse]
  rcases readEntries_cases (logicalLinesOf text) with
    ⟨entries, hreads, hentries⟩ | ⟨earlier, l, later, cause, hlines, hsound, hlacks, hreads⟩
  · rw [hreads]
    exact .inl ⟨entries, rfl, hentries⟩
  · rw [hreads]
    exact .inr ⟨earlier, l, later, cause, hlines, hsound, hlacks, rfl⟩

theorem not_lacksCode_of_mem {lines : List LogicalLine} {entries : List (String × String)}
    (h : List.Forall₂ LogicalLine.EntryAs lines entries) {l : LogicalLine} (hl : l ∈ lines) :
    ¬ l.LacksCode Readable := by
  induction h with
  | nil => cases hl
  | cons hentry _ ih =>
      rcases List.mem_cons.1 hl with rfl | hl
      · exact hentry.not_lacksCode
      · exact ih hl

theorem parse_error_iff (text : String) :
    (∃ fault, parse text = .error fault) ↔ ∃ l ∈ logicalLinesOf text, l.LacksCode Readable := by
  rcases parse_cases text with
    ⟨entries, hread, hentries⟩ | ⟨earlier, l, later, cause, hlines, -, hlacks, hread⟩
  · constructor
    · rintro ⟨fault, hfault⟩
      rw [hread] at hfault
      cases hfault
    · rintro ⟨l, hl, hlacks⟩
      exact absurd hlacks (not_lacksCode_of_mem hentries hl)
  · refine ⟨fun _ => ⟨l, ?_, hlacks⟩, fun _ => ⟨_, hread⟩⟩
    rw [hlines]
    exact List.mem_append_right _ List.mem_cons_self

/-- A document is refused exactly if in one of its logical lines an escape is not followed by a
code, and with the number of the first physical line of the first such line; otherwise each escape
is read as the character with its code. A plus sign may take the first place of a code; where none
does, a code is four hexadecimal digits. -/
theorem parse_escapes (text : String) :
    ((∃ fault, parse text = .error fault) ↔ ∃ l ∈ logicalLinesOf text, l.LacksCode Readable) ∧
    (∀ fault, parse text = .error fault →
      ∃ earlier l later before line after number cause,
        logicalLinesOf text = earlier ++ l :: later ∧
        (∀ x ∈ earlier, ¬ x.LacksCode Readable) ∧ l.LacksCode Readable ∧
        StartsAfter text earlier before line after ∧ number = before.count '\n' + 1 ∧
        fault.toError = .parse s!"line {number}: {EscapeFault.message cause}" none) ∧
    (∀ m, parse text = .ok m → ∃ entries, m = .ofList entries ∧
      List.Forall₂ LogicalLine.EntryAs (logicalLinesOf text) entries) ∧
    ((∀ l ∈ logicalLinesOf text, ∀ part ∈ l.parts, ∀ before after,
        EscapeAt part before after → after.head? ≠ some '+') →
      ((∃ fault, parse text = .error fault) ↔
        ∃ l ∈ logicalLinesOf text, l.LacksCode (HexCode 4))) := by
  refine ⟨parse_error_iff text, ?_, ?_, ?_⟩
  · intro fault hfault
    rcases parse_cases text with
      ⟨entries, hread, -⟩ | ⟨earlier, l, later, cause, hlines, hsound, hlacks, hread⟩
    · rw [hread] at hfault
      cases hfault
    · rw [hread] at hfault
      cases hfault
      obtain ⟨before, line, after, hstarts, hnumber⟩ := exists_startsAfter hlines
      exact ⟨earlier, l, later, before, line, after, l.number, cause, hlines, hsound, hlacks,
        hstarts, hnumber, rfl⟩
  · intro m hm
    rcases parse_cases text with ⟨entries, hread, hentries⟩ | ⟨_, _, _, _, _, _, _, hread⟩
    · rw [hread] at hm
      cases hm
      exact ⟨entries, rfl, hentries⟩
    · rw [hread] at hm
      cases hm
  · intro hplus
    rw [parse_error_iff text]
    constructor
    · rintro ⟨l, hl, hlacks⟩
      exact ⟨l, hl, (lacksCode_iff (hplus l hl)).1 hlacks⟩
    · rintro ⟨l, hl, hlacks⟩
      exact ⟨l, hl, (lacksCode_iff (hplus l hl)).2 hlacks⟩

namespace Sample

/-- Four digits are read as the character with their number, and a line with fewer is refused by
its own number. -/
theorem codes_told :
    parse "a=\\u0041" = .ok (.ofList [("a", "A")]) ∧
    (∃ entries, KeyMap.ofList [("a", "A")] = .ofList entries ∧
      List.Forall₂ LogicalLine.EntryAs (logicalLinesOf "a=\\u0041") entries) ∧
    ∃ l ∈ logicalLinesOf "b=1\na=\\u41 2", l.LacksCode (HexCode 4) ∧
      ∃ fault, parse "b=1\na=\\u41 2" = .error fault := by
  obtain ⟨-, -, hread, -⟩ := parse_escapes "a=\\u0041"
  obtain ⟨-, -, -, hplain⟩ := parse_escapes "b=1\na=\\u41 2"
  have hparse : parse "a=\\u0041" = .ok (.ofList [("a", "A")]) := by decide +kernel
  have hlines : logicalLinesOf "b=1\na=\\u41 2" = [⟨1, "b=1".toList⟩, ⟨2, "a=\\u41 2".toList⟩] :=
    rfl
  have hunsigned : ∀ l ∈ logicalLinesOf "b=1\na=\\u41 2", ∀ part ∈ l.parts, '+' ∉ part := by
    rw [hlines]
    decide +kernel
  have hlacks : (⟨2, "a=\\u41 2".toList⟩ : LogicalLine).LacksCode (HexCode 4) := by
    refine ⟨"\\u41 2".toList, List.mem_cons_of_mem _ List.mem_cons_self, [], "41 2".toList,
      ⟨rfl, rfl⟩, ?_⟩
    rintro c ⟨-, hdigits⟩
    exact hdigits.digit (by decide : ' ' ∈ "41 2".toList.take 4) rfl
  have hmem : ⟨2, "a=\\u41 2".toList⟩ ∈ logicalLinesOf "b=1\na=\\u41 2" := by
    rw [hlines]
    exact List.mem_cons_of_mem _ List.mem_cons_self
  refine ⟨hparse, hread _ hparse, _, hmem, hlacks, (hplain ?_).2 ⟨_, hmem, hlacks⟩⟩
  intro l hl part hpart before after hat hplus
  refine hunsigned l hl part hpart ?_
  rw [hat.split]
  exact List.mem_append_right _ (List.mem_cons_of_mem _ (List.mem_cons_of_mem _
    (List.mem_of_mem_head? hplus)))

/-- A code with a plus sign is read, although it is not four digits. -/
theorem signed_code_read :
    parse "a=\\u+041" = .ok (.ofList [("a", "A")]) ∧
      ∃ l ∈ logicalLinesOf "a=\\u+041", l.LacksCode (HexCode 4) := by
  have hlines : logicalLinesOf "a=\\u+041" = [⟨1, "a=\\u+041".toList⟩] := rfl
  have hparts : LogicalLine.parts ⟨1, "a=\\u+041".toList⟩ = [['a'], "\\u+041".toList] := rfl
  refine ⟨by decide +kernel, ⟨1, "a=\\u+041".toList⟩, ?_, ?_⟩
  · rw [hlines]
    exact List.mem_singleton_self _
  · refine ⟨"\\u+041".toList, ?_, [], "+041".toList, ⟨rfl, rfl⟩, fun c hcode => ?_⟩
    · rw [hparts]
      exact List.mem_cons_of_mem _ (List.mem_singleton_self _)
    · have hplus : '+' ∈ "+041".toList.take 4 := by decide
      exact hcode.2.digit hplus rfl

end Sample

end LayeredConfig.Format.Flat
