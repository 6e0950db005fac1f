import LayeredConfig.Proofs.Flat.Lines
import Mathlib.Data.List.Forall2
import Mathlib.Data.List.Induction

/-!
Documents one after another. Whether an entry goes on after a line is told by that line, and not by
what has been joined before it, so a document that ends between two entries is read apart from what
follows it.
-/

namespace LayeredConfig.Format.Flat

def EndsLine (s : List Char) : Prop := s = [] ∨ s.getLast? = some '\n'

theorem go_of_endsLine {a : List Char} (h : a.getLast? = some '\n') (acc b : List Char) :
    physicalLines.go acc (a ++ b) = physicalLines.go acc a ++ physicalLines b ∧
      (physicalLines.go acc a).length = a.count '\n' := by
  induction a generalizing acc with
  | nil => cases h
  | cons c a ih =>
      rw [List.cons_append, physicalLines.go, physicalLines.go]
      by_cases hc : c = '\n'
      · subst hc
        rw [if_pos rfl, if_pos rfl, List.cons_append, List.length_cons, List.count_cons_self]
        cases a with
        | nil => exact ⟨rfl, rfl⟩
        | cons d a =>
            obtain ⟨happend, hlength⟩ := ih h []
            exact ⟨congrArg _ happend, congrArg (· + 1) hlength⟩
      · rw [if_neg hc, if_neg hc, List.count_cons_of_ne hc]
        cases a with
        | nil => exact absurd (Option.some.inj h) hc
        | cons d a => exact ih h (c :: acc)

theorem EndsLine.physicalLines_append {a : List Char} (h : EndsLine a) (b : List Char) :
    physicalLines (a ++ b) = physicalLines a ++ physicalLines b := by
  rcases h with rfl | h
  · rfl
  · exact (go_of_endsLine h [] b).1

theorem EndsLine.length_physicalLines {a : List Char} (h : EndsLine a) :
    (physicalLines a).length = a.count '\n' := by
  rcases h with rfl | h
  · rfl
  · exact (go_of_endsLine h [] []).2

/-- Whether a line belongs to an entry: it continues one that is open before it, or it starts one. -/
def belongs (opened : Bool) (line : List Char) : Bool := opened || !isIgnored (dropBlanks line)

/-- Whether an entry is open after some lines: the last one belongs to it and ends in an odd number
of backslashes. -/
def opensAfter (opened : Bool) (lines : List (List Char)) : Bool :=
  lines.foldl (fun opened line => belongs opened line && continues line) opened

def joined (number : Nat) (unfinished : Option LogicalLine) (line : List Char) : LogicalLine :=
  match unfinished with
  | some l => { l with text := l.text ++ dropBlanks line }
  | none => ⟨number, dropBlanks line⟩

def LogicalLine.dropLast (l : LogicalLine) : LogicalLine := { l with text := l.text.dropLast }

section Lines

variable {n : Nat} {u : Option LogicalLine} {line : List Char}
  {lines rest : List (List Char)}

theorem logicalLines_ignored (h : isIgnored (dropBlanks line) = true) :
    logicalLines n none (line :: rest) = logicalLines (n + 1) none rest := by
  rw [logicalLines, if_pos ⟨rfl, h⟩]

theorem logicalLines_belongs (h : belongs u.isSome line = true) :
    logicalLines n u (line :: rest) =
      if continues (joined n u line).text then
        logicalLines (n + 1) (some (joined n u line).dropLast) rest
      else joined n u line :: logicalLines (n + 1) none rest := by
  have hentry : ¬(u = none ∧ isIgnored (dropBlanks line) = true) := by
    rintro ⟨rfl, hignored⟩
    rw [belongs, hignored] at h
    cases h
  cases u with
  | none =>
      rw [logicalLines, if_neg hentry]
      rfl
  | some l =>
      rw [logicalLines, if_neg hentry]
      rfl

theorem eq_none_of_not_belongs (h : belongs u.isSome line = false) :
    u = none ∧ isIgnored (dropBlanks line) = true := by
  rw [belongs, Bool.or_eq_false_iff, Bool.not_eq_false'] at h
  exact ⟨Option.not_isSome_iff_eq_none.1 (Bool.eq_false_iff.1 h.1), h.2⟩

theorem continues_joined (h : ∀ l ∈ u, continues l.text = false) (line : List Char) :
    continues (joined n u line).text = continues line := by
  cases u with
  | none => exact continues_dropBlanks line
  | some l => exact (continues_append (h l rfl) _).trans (continues_dropBlanks line)

/-- Where no entry is open between lines, they are joined on both sides apart. -/
theorem logicalLines_append (hu : ∀ l ∈ u, continues l.text = false)
    (h : opensAfter u.isSome lines = false) :
    logicalLines n u (lines ++ rest) =
      logicalLines n u lines ++ logicalLines (n + lines.length) none rest := by
  induction lines generalizing n u with
  | nil =>
      obtain rfl : u = none := Option.not_isSome_iff_eq_none.1 (Bool.eq_false_iff.1 h)
      rfl
  | cons line lines ih =>
      have hlater : opensAfter (belongs u.isSome line && continues line) lines = false := h
      rw [List.cons_append, List.length_cons, Nat.add_comm lines.length, ← Nat.add_assoc]
      cases hbelongs : belongs u.isSome line with
      | false =>
          obtain ⟨rfl, hignored⟩ := eq_none_of_not_belongs hbelongs
          rw [hbelongs, Bool.false_and] at hlater
          rw [logicalLines_ignored hignored, logicalLines_ignored hignored]
          exact ih nofun hlater
      | true =>
          have hcontinues := continues_joined (n := n) hu line
          rw [hbelongs, Bool.true_and] at hlater
          rw [logicalLines_belongs hbelongs, logicalLines_belongs hbelongs]
          cases hline : continues line with
          | true =>
              rw [hline] at hcontinues hlater
              rw [if_pos hcontinues, if_pos hcontinues]
              refine ih ?_ hlater
              rintro l hl
              cases hl
              exact continues_dropLast hcontinues
          | false =>
              rw [hline] at hcontinues hlater
              rw [if_neg (Bool.eq_false_iff.1 hcontinues), if_neg (Bool.eq_false_iff.1 hcontinues),
                List.cons_append]
              exact congrArg _ (ih nofun hlater)

end Lines

/-- Logical lines with one text, and with numbers in a relation. -/
structure Renumbered (N : Nat → Nat → Prop) (l l' : LogicalLine) : Prop where
  text : l.text = l'.text
  number : N l.number l'.number

/-- Readings that agree, or fail with one fault on lines with numbers in a relation. -/
inductive SameReading {α : Type} (N : Nat → Nat → Prop) :
    Except DocumentFault α → Except DocumentFault α → Prop
  | ok (a : α) : SameReading N (.ok a) (.ok a)
  | error {n m : Nat} (fault : EscapeFault) : N n m →
      SameReading N (.error (.line n fault)) (.error (.line m fault))

section Numbers

variable {N : Nat → Nat → Prop}

theorem renumbered_joined {n m : Nat} {u v : Option LogicalLine} (hn : N n m)
    (huv : Option.Rel (Renumbered N) u v) (line : List Char) :
    Renumbered N (joined n u line) (joined m v line) := by
  cases huv with
  | none => exact ⟨rfl, hn⟩
  | some h => exact ⟨congrArg (· ++ dropBlanks line) h.text, h.number⟩

theorem renumbered_logicalLines (hN : ∀ n m, N n m → N (n + 1) (m + 1)) {n m : Nat} (hn : N n m)
    {u v : Option LogicalLine} (huv : Option.Rel (Renumbered N) u v) (lines : List (List Char)) :
    List.Forall₂ (Renumbered N) (logicalLines n u lines) (logicalLines m v lines) := by
  induction lines generalizing n m u v with
  | nil =>
      cases huv with
      | none => exact .nil
      | some h => exact .cons h .nil
  | cons line lines ih =>
      have hsome : u.isSome = v.isSome := by
        cases huv with
        | none => rfl
        | some h => rfl
      have hnext := hN n m hn
      cases hbelongs : belongs u.isSome line with
      | false =>
          obtain ⟨rfl, hignored⟩ := eq_none_of_not_belongs hbelongs
          cases huv
          rw [logicalLines_ignored hignored, logicalLines_ignored hignored]
          exact ih hnext .none
      | true =>
          have hjoined := renumbered_joined hn huv line
          rw [logicalLines_belongs hbelongs, logicalLines_belongs (hsome ▸ hbelongs),
            ← hjoined.text]
          split
          · refine ih hnext (.some ⟨?_, hjoined.number⟩)
            exact congrArg List.dropLast hjoined.text
          · exact .cons hjoined (ih hnext .none)

theorem SameReading.bind {α β : Type} {x y : Except DocumentFault α}
    {f g : α → Except DocumentFault β} (h : SameReading N x y)
    (hfg : ∀ a, SameReading N (f a) (g a)) : SameReading N (x >>= f) (y >>= g) := by
  cases h with
  | ok a => exact hfg a
  | error fault hnm => exact .error fault hnm

theorem sameReading_readEntry {l l' : LogicalLine} (h : Renumbered N l l') :
    SameReading N (readEntry l) (readEntry l') := by
  rw [readEntry, readEntry, ← h.text]
  obtain ⟨key, value⟩ := splitEntry l.text
  dsimp only
  cases unescape key with
  | error fault => exact .error fault h.number
  | ok key =>
      cases unescape value with
      | error fault => exact .error fault h.number
      | ok value => exact .ok _

theorem sameReading_readEntries {l l' : List LogicalLine} (h : List.Forall₂ (Renumbered N) l l') :
    SameReading N (readEntries l) (readEntries l') := by
  induction h with
  | nil => exact .ok []
  | cons h _ ih => exact (sameReading_readEntry h).bind fun _ => ih.bind fun _ => .ok _

theorem SameReading.toOption {α : Type} {x y : Except DocumentFault α} (h : SameReading N x y) :
    x.toOption = y.toOption := by
  cases h with
  | ok a => rfl
  | error fault hnm => rfl

end Numbers

theorem opensAfter_concat (opened : Bool) (lines : List (List Char)) (line : List Char) :
    opensAfter opened (lines ++ [line]) =
      (belongs (opensAfter opened lines) line && continues line) := by
  rw [opensAfter, List.foldl_append]
  rfl

theorem readEntries_append (l l' : List LogicalLine) :
    readEntries (l ++ l') = do return (← readEntries l) ++ (← readEntries l') := by
  induction l with
  | nil => exact (bind_pure (readEntries l')).symm
  | cons line l ih =>
      rw [List.cons_append, readEntries, ih, readEntries]
      cases readEntry line with
      | error fault => rfl
      | ok entry =>
          cases readEntries l with
          | error fault => rfl
          | ok entries =>
              cases readEntries l' with
              | error fault => rfl
              | ok entries' => rfl

/-- What is read after a finished document is read as it stands alone, but for the numbers of its
lines. -/
theorem entriesOf_append {a : List Char} (hends : EndsLine a)
    (hclosed : opensAfter false (physicalLines a) = false) (b : List Char) :
    ∃ later, entriesOf (a ++ b) = (do return (← entriesOf a) ++ (← later)) ∧
      SameReading (fun n m => m = n + a.count '\n') (entriesOf b) later := by
  refine ⟨readEntries (logicalLines (1 + (physicalLines a).length) none (physicalLines b)), ?_, ?_⟩
  · rw [entriesOf, hends.physicalLines_append,
      logicalLines_append (u := none) nofun hclosed, readEntries_append]
    rfl
  · refine sameReading_readEntries (renumbered_logicalLines ?_ ?_ .none (physicalLines b))
    · intro n m hnm
      rw [hnm, Nat.add_right_comm]
    · rw [hends.length_physicalLines]

/-- A document that ends with a line, and not within an entry, is read apart from what follows it:
the entries that follow are laid over its own, a fault of its own comes first, and a fault of what
follows is told with the number that its line has in the whole. -/
theorem parse_append (a b : String) (hends : EndsLine a.toList)
    (hlast : ∀ lines line, physicalLines a.toList = lines ++ [line] →
      belongs (opensAfter false lines) line = true → continues line = false) :
    (∀ m n, parse a = .ok m → parse b = .ok n → parse (a ++ b) = .ok (m.overlay n)) ∧
    (∀ fault, parse a = .error fault → parse (a ++ b) = .error fault) ∧
    ∀ m fault, parse a = .ok m → parse b = .error fault → ∃ number cause,
      fault = .line number cause ∧
        parse (a ++ b) = .error (.line (number + a.toList.count '\n') cause) := by
  have hclosed : opensAfter false (physicalLines a.toList) = false := by
    rcases List.eq_nil_or_concat' (physicalLines a.toList) with hnil | ⟨lines, line, hlines⟩
    · rw [hnil]
      rfl
    · rw [hlines, opensAfter_concat]
      cases hbelongs : belongs (opensAfter false lines) line with
      | false => rfl
      | true => exact hlast lines line hlines hbelongs
  obtain ⟨later, happend, hlater⟩ := entriesOf_append hends hclosed b.toList
  rw [parse, parse, parse, String.toList_append, happend]
  generalize entriesOf b.toList = found at hlater ⊢
  cases entriesOf a.toList with
  | error fault =>
      refine ⟨nofun, ?_, nofun⟩
      rintro fault' ⟨⟩
      rfl
  | ok entries =>
      cases hlater with
      | ok entries' =>
          refine ⟨?_, nofun, nofun⟩
          rintro m n ⟨⟩ ⟨⟩
          exact congrArg Except.ok (KeyMap.ofList_append entries entries')
      | error cause hnm =>
          refine ⟨nofun, nofun, ?_⟩
          rintro m fault ⟨⟩ ⟨⟩
          subst hnm
          exact ⟨_, cause, rfl, rfl⟩

namespace Sample

/-- Three entries and a comment that ends in a backslash, in four lines. -/
def noted : String := "k=1,\\\r\n  2\nl=x\n# note \\\n"

/-- What follows a document may change its entries, or have a fault on the third of its lines. -/
theorem noted_followed :
    parse (noted ++ "k=3\nm=\\u0041") = .ok (.ofList [("k", "3"), ("l", "x"), ("m", "A")]) ∧
      parse (noted ++ "k=3\n\nm=\\u12") = .error (.line 7 (.malformed ['1', '2'])) := by
  have hlines : physicalLines noted.toList =
      ["k=1,\\".toList, "  2".toList, "l=x".toList] ++ ["# note \\".toList] := rfl
  have hnoted : parse noted = .ok (.ofList [("k", "1,2"), ("l", "x")]) := by decide +kernel
  have hlater : parse "k=3\nm=\\u0041" = .ok (.ofList [("k", "3"), ("m", "A")]) := by
    decide +kernel
  have hfaulty : parse "k=3\n\nm=\\u12" = .error (.line 3 (.malformed ['1', '2'])) := by
    decide +kernel
  have hlast : ∀ lines line, physicalLines noted.toList = lines ++ [line] →
      belongs (opensAfter false lines) line = true → continues line = false := by
    intro lines line h hbelongs
    obtain ⟨rfl, hline⟩ := List.append_inj' (hlines.symm.trans h) rfl
    obtain rfl := List.singleton_inj.1 hline
    cases hbelongs
  obtain ⟨hover, -, -⟩ := parse_append noted "k=3\nm=\\u0041" (.inr rfl) hlast
  obtain ⟨-, -, hfault⟩ := parse_append noted "k=3\n\nm=\\u12" (.inr rfl) hlast
  refine ⟨(hover _ _ hnoted hlater).trans (by decide +kernel), ?_⟩
  obtain ⟨number, cause, hcause, hwhole⟩ := hfault _ _ hnoted hfaulty
  cases hcause
  exact hwhole

end Sample

end LayeredConfig.Format.Flat
