import LayeredConfig.Proofs.Flat.Escapes

/-!
Ends of lines and of their parts. Whether a line goes on is told by the backslashes at its right
end, and whether a separator is escaped by reading from the left; the two agree, so a line that has
been joined ends outside of an escape, and so do the key part and the value part that it is split
into. What a backslash at the very end of a part stands for therefore matters to no document.
-/

namespace LayeredConfig.Format.Flat

/-- Whether a text that is read from the left ends within an escape: behind a backslash that is not
escaped itself. -/
def endsEscaped (s : List Char) : Bool := s.foldl (fun escaped c => !escaped && c == '\\') false

theorem endsEscaped_eq_continues (s : List Char) : endsEscaped s = continues s := by
  induction s using List.reverseRecOn with
  | nil => rfl
  | append_singleton s c ih =>
      rw [continues_concat, ← ih, endsEscaped, List.foldl_concat, Bool.and_comm]
      rfl

/-- Joining goes on as long as a line continues, and at the end of the text the backslash that asks
for another line is gone already. -/
theorem not_continues_of_mem_logicalLines {n : Nat} {u : Option LogicalLine}
    (hu : ∀ l ∈ u, continues l.text = false) {lines : List (List Char)} :
    ∀ l ∈ logicalLines n u lines, continues l.text = false := by
  induction lines generalizing n u with
  | nil =>
      intro l hl
      exact hu l (Option.mem_toList.1 hl)
  | cons line lines ih =>
      cases hbelongs : belongs u.isSome line with
      | false =>
          obtain ⟨rfl, hignored⟩ := eq_none_of_not_belongs hbelongs
          rw [logicalLines_ignored hignored]
          exact ih nofun
      | true =>
          rw [logicalLines_belongs hbelongs]
          cases hcontinues : continues (joined n u line).text with
          | true =>
              rw [if_pos rfl]
              refine ih ?_
              rintro l ⟨⟩
              exact continues_dropLast hcontinues
          | false =>
              rw [if_neg Bool.false_ne_true]
              exact List.forall_mem_cons.2 ⟨hcontinues, ih nofun⟩

theorem exists_dropBlanks (s : List Char) : ∃ blanks, s = blanks ++ dropBlanks s ∧ '\\' ∉ blanks := by
  refine ⟨s.takeWhile Text.isBlank, List.takeWhile_append_dropWhile.symm, fun hmem => ?_⟩
  exact absurd (List.mem_takeWhile_imp hmem) (by decide)

theorem exists_afterSign {s rest : List Char} {c : Char} (h : dropBlanks s = c :: rest)
    (hc : '\\' ≠ c) : ∃ between, s = between ++ dropBlanks rest ∧ '\\' ∉ between := by
  obtain ⟨blanks, hs, hblanks⟩ := exists_dropBlanks s
  obtain ⟨later, hrest, hlater⟩ := exists_dropBlanks rest
  refine ⟨blanks ++ c :: later, ?_, ?_⟩
  · rw [List.append_assoc, List.cons_append, ← hrest, ← h, ← hs]
  · exact List.not_mem_append hblanks (List.not_mem_cons_of_ne_of_not_mem hc hlater)

theorem exists_afterBlank (s : List Char) :
    ∃ between, s = between ++ afterBlank s ∧ '\\' ∉ between := by
  rw [afterBlank]
  split
  · rename_i rest hrest
    exact exists_afterSign hrest (by decide)
  · rename_i rest hrest
    exact exists_afterSign hrest (by decide)
  · exact exists_dropBlanks s

theorem ne_of_unescaped {c : Char} {rest : List Char} (hlone : c = '\\' → rest = [] → False)
    (hpair : ∀ d later, c = '\\' → rest = d :: later → False) : '\\' ≠ c := by
  rintro rfl
  cases rest with
  | nil => exact hlone rfl rfl
  | cons d later => exact hpair d later rfl rfl

/-- The parts of a line: it is all key, or the key part ends outside of an escape, and there is no
backslash between the parts. -/
inductive PartsOf : List Char → List Char × List Char → Prop
  | key (line) : PartsOf line (line, [])
  | both {key between value} (closed : continues key = false) (noEscape : '\\' ∉ between) :
      PartsOf (key ++ (between ++ value)) (key, value)

namespace PartsOf

variable {line : List Char} {parts : List Char × List Char}

theorem append {w : List Char} (hw : continues w = false) (h : PartsOf line parts) :
    PartsOf (w ++ line) (w ++ parts.1, parts.2) := by
  cases h with
  | key => exact .key _
  | both closed noEscape =>
      rw [← List.append_assoc]
      exact .both ((continues_append hw _).trans closed) noEscape

theorem not_continues (h : PartsOf line parts) (hline : continues line = false) :
    continues parts.1 = false ∧ continues parts.2 = false := by
  cases h with
  | key => exact ⟨hline, rfl⟩
  | both closed noEscape =>
      rw [continues_append closed, continues_append (continues_of_not_mem noEscape)] at hline
      exact ⟨closed, hline⟩

end PartsOf

theorem partsOf_splitEntry (line : List Char) : PartsOf line (splitEntry line) := by
  fun_induction splitEntry line with
  | case1 => exact .key []
  | case2 => exact .key ['\\']
  | case3 c rest key value hsplit ih =>
      -- A backslash and what it escapes are passed together, so the rest is split outside of it.
      rw [hsplit] at ih
      exact ih.append (continues_pair c)
  | case4 c rest hlone hpair hsign =>
      obtain ⟨blanks, hrest, hblanks⟩ := exists_dropBlanks rest
      have hc : '\\' ≠ c := by rcases hsign with rfl | rfl <;> decide
      have hline : c :: rest = [] ++ ((c :: blanks) ++ dropBlanks rest) := congrArg (c :: ·) hrest
      rw [hline]
      exact .both rfl (List.not_mem_cons_of_ne_of_not_mem hc hblanks)
  | case5 c rest hlone hpair hsign hblank =>
      obtain ⟨between, hrest, hbetween⟩ := exists_afterBlank rest
      have hc : '\\' ≠ c := by
        rintro rfl
        cases hblank
      have hline : c :: rest = [] ++ ((c :: between) ++ afterBlank rest) := congrArg (c :: ·) hrest
      rw [hline]
      exact .both rfl (List.not_mem_cons_of_ne_of_not_mem hc hbetween)
  | case6 c rest hlone hpair hsign hblank key value hsplit ih =>
      have hc : '\\' ≠ c := ne_of_unescaped hlone hpair
      rw [hsplit] at ih
      exact ih.append (continues_of_not_mem (mt List.mem_singleton.1 hc))

theorem not_continues_of_mem_logicalLinesOf {text : String} {l : LogicalLine}
    (hl : l ∈ logicalLinesOf text) : ∀ s ∈ l.text :: l.parts, continues s = false := by
  have hline : continues l.text = false :=
    not_continues_of_mem_logicalLines (u := none) nofun l hl
  obtain ⟨hkey, hvalue⟩ := (partsOf_splitEntry l.text).not_continues hline
  refine List.forall_mem_cons.2 ⟨hline, ?_⟩
  exact List.forall_mem_cons.2 ⟨hkey, List.forall_mem_singleton.2 hvalue⟩

def letter : Char → Char
  | 't' => '\t'
  | 'n' => '\n'
  | 'r' => '\r'
  | 'f' => '\x0c'
  | other => other

/-- Decoding in which `dangling` is what a backslash at the very end stands for. -/
def unescapeWith (dangling : Except EscapeFault (List Char)) :
    List Char → Except EscapeFault (List Char)
  | [] => .ok []
  | ['\\'] => dangling
  | '\\' :: 'u' :: rest => do
    let c ← characterOf (rest.take 4)
    return c :: (← unescapeWith dangling (rest.drop 4))
  | '\\' :: c :: rest => return letter c :: (← unescapeWith dangling rest)
  | c :: rest => return c :: (← unescapeWith dangling rest)
termination_by s => s.length
decreasing_by all_goals simp_wf; try omega

-- The first of three backslashes escapes the second one, and the third one dangles.
example : unescapeWith (.ok ['?']) "\\u0041\\\\\\".toList = .ok "A\\?".toList := by decide +kernel

/-- What a backslash at the very end stands for matters only in a part that ends within an
escape. -/
theorem unescapeWith_eq_unescape {dangling : Except EscapeFault (List Char)} {part : List Char}
    (h : continues part = true → dangling = .ok []) :
    unescapeWith dangling part = unescape part := by
  fun_induction unescape part with
  | case1 => rw [unescapeWith]
  | case2 =>
      rw [unescapeWith]
      exact h rfl
  | case3 rest ih =>
      rw [unescapeWith]
      -- A code that is read has no backslash in it, and one that is not ends the decoding.
      cases hcode : characterOf (rest.take 4) with
      | error fault => rfl
      | ok c =>
          have hpiece : Piece ('\\' :: 'u' :: rest.take 4) c :=
            .code (characterOf_eq_ok_iff.1 hcode)
          have hrest := continues_append hpiece.not_continues (rest.drop 4)
          rw [List.cons_append, List.cons_append, List.take_append_drop] at hrest
          rw [ih (hrest ▸ h)]
  | case4 c rest hcode decoded ih =>
      have hrest := continues_append (continues_pair c) rest
      rw [unescapeWith, ih (hrest ▸ h)]
      · rfl
      · exact hcode
  | case5 c rest hlone hcode hpair ih =>
      have hc : '\\' ≠ c := ne_of_unescaped hlone hpair
      have hrest := continues_append (continues_of_not_mem (mt List.mem_singleton.1 hc)) rest
      rw [unescapeWith, ih (hrest ▸ h)]
      · exact hlone
      · exact hcode
      · exact hpair

/-- Reads the entry of a logical line with a way to decode its parts. -/
def readEntryWith (decode : List Char → Except EscapeFault (List Char)) (line : LogicalLine) :
    Except DocumentFault (String × String) :=
  let (key, value) := splitEntry line.text
  match decode key, decode value with
  | .ok key, .ok value => .ok (String.ofList key, String.ofList value)
  | .error f, _ | _, .error f => .error (.line line.number f)

/-- Reads a document with a way to decode the parts of its lines. -/
def parseWith (decode : List Char → Except EscapeFault (List Char)) (text : String) :
    Except DocumentFault (KeyMap String) :=
  return .ofList (← (logicalLinesOf text).mapM (readEntryWith decode))

theorem readEntryWith_unescape (l : LogicalLine) : readEntryWith unescape l = readEntry l := rfl

theorem readEntryWith_congr {decode decode' : List Char → Except EscapeFault (List Char)}
    {l : LogicalLine} (h : ∀ part ∈ l.parts, decode part = decode' part) :
    readEntryWith decode l = readEntryWith decode' l := by
  obtain ⟨hkey, hvalue⟩ := List.forall_mem_cons.1 h
  rw [readEntryWith, readEntryWith]
  dsimp only
  rw [hkey, List.forall_mem_singleton.1 hvalue]

theorem mapM_readEntryWith {decode : List Char → Except EscapeFault (List Char)}
    {lines : List LogicalLine} (h : ∀ l ∈ lines, ∀ part ∈ l.parts, decode part = unescape part) :
    lines.mapM (readEntryWith decode) = readEntries lines := by
  induction lines with
  | nil => rfl
  | cons l lines ih =>
      obtain ⟨hl, hlines⟩ := List.forall_mem_cons.1 h
      rw [List.mapM_cons, readEntryWith_congr hl, readEntryWith_unescape, ih hlines, readEntries]

theorem parseWith_eq_parse {decode : List Char → Except EscapeFault (List Char)} {text : String}
    (h : ∀ l ∈ logicalLinesOf text, ∀ part ∈ l.parts, decode part = unescape part) :
    parseWith decode text = parse text := by
  rw [parseWith, mapM_readEntryWith h]
  rfl

/-- Every logical line, its key part and its value part end outside of an escape, told from the
right or from the left. So a document is read by decoding texts alone that end so, and whatever a
backslash at the very end of a part stands for, it is read as it is. -/
theorem parse_outside_escapes (text : String) :
    (∀ l ∈ logicalLinesOf text, ∀ s ∈ l.text :: l.parts,
      continues s = false ∧ endsEscaped s = false) ∧
    (∀ decode : List Char → Except EscapeFault (List Char),
      (∀ s, endsEscaped s = false → decode s = unescape s) →
        parseWith decode text = parse text) ∧
    ∀ dangling, parseWith (unescapeWith dangling) text = parse text := by
  have hends : ∀ l ∈ logicalLinesOf text, ∀ s ∈ l.text :: l.parts, endsEscaped s = false := by
    intro l hl s hs
    rw [endsEscaped_eq_continues]
    exact not_continues_of_mem_logicalLinesOf hl s hs
  have hdecode (decode : List Char → Except EscapeFault (List Char))
      (h : ∀ s, endsEscaped s = false → decode s = unescape s) :
      parseWith decode text = parse text :=
    parseWith_eq_parse fun l hl part hpart => h part (hends l hl part (List.mem_cons_of_mem _ hpart))
  refine ⟨?_, hdecode, ?_⟩
  · intro l hl s hs
    exact ⟨not_continues_of_mem_logicalLinesOf hl s hs, hends l hl s hs⟩
  · intro dangling
    refine hdecode (unescapeWith dangling) fun s hs => unescapeWith_eq_unescape fun hescaped => ?_
    rw [← endsEscaped_eq_continues, hs] at hescaped
    cases hescaped

end LayeredConfig.Format.Flat
