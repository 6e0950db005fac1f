import LayeredConfig.Proofs.Flat.Joining

/-!
Lines that are broken in two. An entry of which a line is broken, with a backslash before the break
and any blanks after it, has the text that it had; only the lines after it are counted otherwise.
-/

namespace LayeredConfig.Format.Flat

/-- A line and the text after it, which is empty or starts with the end of the line: a line feed,
or a carriage return and a line feed, of which none belongs to the line. -/
structure EndsBefore (line after : List Char) : Prop where
  noFeed : '\n' ∉ line
  ends : after = [] ∨ (∃ rest, after = '\r' :: '\n' :: rest) ∨
    ((∃ rest, after = '\n' :: rest) ∧ line.getLast? ≠ some '\r')

/-- A line of a text, between the lines before it and the text after it. -/
structure LineAt (before line after : List Char) : Prop extends EndsBefore line after where
  starts : EndsLine before

def linesAfter : List Char → List (List Char)
  | '\n' :: rest | '\r' :: '\n' :: rest => physicalLines rest
  | _ => []

theorem physicalLines_of_not_mem {line : List Char} (h : '\n' ∉ line) (hne : line ≠ []) :
    physicalLines line = [line] := by
  suffices hgo : ∀ acc, acc.reverse ++ line ≠ [] →
      physicalLines.go acc line = [acc.reverse ++ line] from hgo [] hne
  clear hne
  induction line with
  | nil =>
      intro acc hacc
      rw [List.append_nil] at hacc
      rw [physicalLines.go, if_neg (mt List.reverse_eq_nil_iff.2 hacc), List.append_nil]
  | cons c line ih =>
      intro acc _
      have hc : c ≠ '\n' := Ne.symm (List.ne_of_not_mem_cons h)
      rw [physicalLines.go, if_neg hc, ih (List.not_mem_of_not_mem_cons h) (c :: acc) (by simp),
        List.reverse_cons, List.append_assoc, List.singleton_append]

theorem EndsBefore.physicalLines {line after : List Char} (h : EndsBefore line after)
    (hne : line ≠ [] ∨ after ≠ []) :
    physicalLines (line ++ after) = line :: linesAfter after := by
  rcases h.ends with rfl | ⟨rest, rfl⟩ | ⟨⟨rest, rfl⟩, hreturn⟩
  · rw [List.append_nil]
    exact physicalLines_of_not_mem h.noFeed (hne.resolve_right (not_not_intro rfl))
  · have hmem : '\n' ∉ line ++ ['\r'] := List.not_mem_append h.noFeed (by decide)
    have hlines := physicalLines_append hmem rest
    rw [List.append_assoc, List.singleton_append, dropReturn, List.getLast?_concat, if_pos rfl,
      List.dropLast_concat] at hlines
    exact hlines
  · rw [physicalLines_append h.noFeed, dropReturn, if_neg hreturn]
    rfl

theorem exists_endsBefore {line : List Char} (h : '\n' ∉ line) (rest : List Char) :
    ∃ after, line ++ '\n' :: rest = dropReturn line ++ after ∧
      EndsBefore (dropReturn line) after := by
  by_cases hlast : line.getLast? = some '\r'
  · obtain ⟨start, rfl⟩ := List.getLast?_eq_some_iff.1 hlast
    have hstart : '\n' ∉ start := fun hmem => h (List.mem_append_left _ hmem)
    rw [dropReturn, if_pos hlast, List.dropLast_concat]
    refine ⟨'\r' :: '\n' :: rest, ?_, hstart, .inr (.inl ⟨rest, rfl⟩)⟩
    rw [List.append_assoc, List.singleton_append]
  · rw [dropReturn, if_neg hlast]
    exact ⟨'\n' :: rest, rfl, h, .inr (.inr ⟨⟨rest, rfl⟩, hlast⟩)⟩

theorem EndsLine.after_line {s : List Char} (h : EndsLine s) (line : List Char) :
    EndsLine (line ++ '\n' :: s) := by
  rcases h with rfl | hlast
  · exact .inr (List.getLast?_concat ..)
  · obtain ⟨start, rfl⟩ := List.getLast?_eq_some_iff.1 hlast
    rw [← List.cons_append, ← List.append_assoc]
    exact .inr (List.getLast?_concat ..)

theorem exists_lineAt {s line : List Char} {lines rest : List (List Char)}
    (h : physicalLines s = lines ++ line :: rest) :
    ∃ before after, s = before ++ (line ++ after) ∧ LineAt before line after ∧
      physicalLines before = lines := by
  induction lines generalizing s with
  | nil =>
      by_cases hmem : '\n' ∈ s
      · obtain ⟨first, later, rfl, hfirst⟩ := List.eq_append_cons_of_mem hmem
        rw [physicalLines_append hfirst] at h
        obtain ⟨rfl, -⟩ := List.cons.inj h
        obtain ⟨after, hafter, hends⟩ := exists_endsBefore hfirst later
        exact ⟨[], after, hafter, ⟨hends, .inl rfl⟩, rfl⟩
      · have hs : s ≠ [] := by
          rintro rfl
          cases h
        rw [physicalLines_of_not_mem hmem hs] at h
        obtain ⟨rfl, -⟩ := List.cons.inj h
        exact ⟨[], [], (List.append_nil s).symm, ⟨⟨hmem, .inl rfl⟩, .inl rfl⟩, rfl⟩
  | cons first lines ih =>
      by_cases hmem : '\n' ∈ s
      · obtain ⟨start, later, rfl, hstart⟩ := List.eq_append_cons_of_mem hmem
        rw [physicalLines_append hstart] at h
        obtain ⟨rfl, hlater⟩ := List.cons.inj h
        obtain ⟨before, after, rfl, hline, hbefore⟩ := ih hlater
        refine ⟨start ++ '\n' :: before, after, ?_, ⟨hline.toEndsBefore, ?_⟩, ?_⟩
        · rw [List.append_assoc, List.cons_append]
        · exact hline.starts.after_line start
        · rw [physicalLines_append hstart, hbefore]
      · have hs : s ≠ [] := by
          rintro rfl
          cases h
        rw [physicalLines_of_not_mem hmem hs] at h
        exact absurd (List.cons.inj h).2
          (List.append_ne_nil_of_right_ne_nil lines (List.cons_ne_nil line rest)).symm

theorem dropBlanks_ne_nil {x : List Char} (hx : ∃ c ∈ x, Text.isBlank c = false) :
    dropBlanks x ≠ [] := by
  obtain ⟨c, hc, hblank⟩ := hx
  rw [dropBlanks, Ne, List.dropWhile_eq_nil_iff]
  intro hall
  rw [hall c hc] at hblank
  cases hblank

theorem dropBlanks_append {x : List Char} (hx : ∃ c ∈ x, Text.isBlank c = false) (z : List Char) :
    dropBlanks (x ++ z) = dropBlanks x ++ z := by
  have hne : (x.dropWhile Text.isBlank).isEmpty = false :=
    List.isEmpty_eq_false_iff.2 (dropBlanks_ne_nil hx)
  rw [dropBlanks, List.dropWhile_append, hne, if_neg Bool.false_ne_true]
  rfl

theorem isIgnored_append {s : List Char} (h : s ≠ []) (z : List Char) :
    isIgnored (s ++ z) = isIgnored s := by
  cases s with
  | nil => exact absurd rfl h
  | cons c s => rfl

theorem dropBlanks_of_head {y : List Char} (hy : ∀ c ∈ y.head?, Text.isBlank c = false) :
    dropBlanks y = y := by
  cases y with
  | nil => rfl
  | cons c y => exact List.dropWhile_cons_of_neg (Bool.eq_false_iff.1 (hy c rfl))

theorem dropBlanks_blanks {blanks : List Char} (h : ∀ c ∈ blanks, Text.isBlank c = true)
    (y : List Char) : dropBlanks (blanks ++ y) = dropBlanks y := by
  rw [dropBlanks, List.dropWhile_append, List.dropWhile_eq_nil_iff.2 h]
  rfl

section Broken

variable {x y blanks : List Char} {n : Nat}

theorem belongs_of_part (hx : ∃ c ∈ x, Text.isBlank c = false)
    (hentry : isIgnored (dropBlanks (x ++ y)) = false) (z : List Char) :
    belongs false (x ++ z) = true := by
  have hne := dropBlanks_ne_nil hx
  rw [dropBlanks_append hx, isIgnored_append hne] at hentry
  rw [belongs, dropBlanks_append hx, isIgnored_append hne, hentry]
  rfl

theorem logicalLines_break (hx : ∃ c ∈ x, Text.isBlank c = false)
    (hentry : isIgnored (dropBlanks (x ++ y)) = false) (heven : continues x = false)
    (rest : List (List Char)) :
    logicalLines n none ((x ++ ['\\']) :: rest) =
      logicalLines (n + 1) (some ⟨n, dropBlanks x⟩) rest := by
  have hcontinues : continues (joined n none (x ++ ['\\'])).text = true := by
    rw [continues_joined (u := none) nofun, continues_concat, heven]
    rfl
  have hdropped : (joined n none (x ++ ['\\'])).dropLast = ⟨n, dropBlanks x⟩ := by
    rw [joined, LogicalLine.dropLast, dropBlanks_append hx, List.dropLast_concat]
  rw [logicalLines_belongs (u := none) (belongs_of_part hx hentry _), if_pos hcontinues, hdropped]

theorem renumbered_broken (hx : ∃ c ∈ x, Text.isBlank c = false)
    (hentry : isIgnored (dropBlanks (x ++ y)) = false) (heven : continues x = false)
    (hy : ∀ c ∈ y.head?, Text.isBlank c = false) (hblanks : ∀ c ∈ blanks, Text.isBlank c = true)
    (rest : List (List Char)) :
    List.Forall₂ (Renumbered fun _ _ => True)
      (logicalLines n none ((x ++ ['\\']) :: (blanks ++ y) :: rest))
      (logicalLines n none ((x ++ y) :: rest)) := by
  have hjoined : joined (n + 1) (some ⟨n, dropBlanks x⟩) (blanks ++ y) = joined n none (x ++ y) := by
    rw [joined, joined, dropBlanks_append hx, dropBlanks_blanks hblanks, dropBlanks_of_head hy]
  rw [logicalLines_break hx hentry heven, logicalLines_belongs (u := some _) (Bool.true_or _),
    hjoined, logicalLines_belongs (u := none) (belongs_of_part hx hentry y)]
  split
  · exact renumbered_logicalLines (fun _ _ _ => trivial) trivial (.some ⟨rfl, trivial⟩) rest
  · exact .cons ⟨rfl, trivial⟩
      (renumbered_logicalLines (fun _ _ _ => trivial) trivial .none rest)

theorem renumbered_broken_end (hx : ∃ c ∈ x, Text.isBlank c = false)
    (hentry : isIgnored (dropBlanks x) = false) (heven : continues x = false) :
    List.Forall₂ (Renumbered fun _ _ => True) (logicalLines n none [x ++ ['\\']])
      (logicalLines n none [x]) := by
  have hcontinues : continues (joined n none x).text = false :=
    (continues_joined (u := none) nofun x).trans heven
  have hstarts : belongs false x = true := by
    rw [belongs, hentry]
    rfl
  rw [logicalLines_break (y := []) hx (by rwa [List.append_nil]) heven,
    logicalLines_belongs (u := none) hstarts, if_neg (Bool.eq_false_iff.1 hcontinues)]
  exact .cons ⟨rfl, trivial⟩ .nil

theorem EndsBefore.broken {after : List Char} (h : EndsBefore (x ++ y) after)
    (hblanks : ∀ c ∈ blanks, Text.isBlank c = true) :
    EndsBefore (x ++ ['\\']) ('\n' :: (blanks ++ y ++ after)) ∧ EndsBefore (blanks ++ y) after := by
  have hfeed : '\n' ∉ blanks := fun hmem => absurd (hblanks _ hmem) (by decide)
  have hreturn : '\r' ∉ blanks := fun hmem => absurd (hblanks _ hmem) (by decide)
  obtain ⟨hx, hy⟩ := not_or.1 (mt List.mem_append.2 h.noFeed)
  refine ⟨⟨?_, ?_⟩, ⟨?_, ?_⟩⟩
  · exact List.not_mem_append hx (by decide)
  · exact .inr (.inr ⟨⟨_, rfl⟩, by rw [List.getLast?_concat]; decide⟩)
  · exact List.not_mem_append hfeed hy
  · refine h.ends.imp_right (Or.imp_right (And.imp_right ?_))
    intro hlast
    cases y with
    | nil =>
        rw [List.append_nil]
        exact fun hmem => hreturn (List.mem_of_getLast? hmem)
    | cons c y =>
        rw [List.getLast?_append_of_ne_nil _ (List.cons_ne_nil c y)] at hlast ⊢
        exact hlast

/-- The entries of a text, one of whose lines is broken, have the texts that they had. -/
theorem renumbered_broken_line {before after : List Char} (hline : LineAt before (x ++ y) after)
    (hclosed : opensAfter false (physicalLines before) = false)
    (hentry : isIgnored (dropBlanks (x ++ y)) = false)
    (hx : ∃ c ∈ x, Text.isBlank c = false) (heven : continues x = false)
    (hy : ∀ c ∈ y.head?, Text.isBlank c = false) (hblanks : ∀ c ∈ blanks, Text.isBlank c = true) :
    List.Forall₂ (Renumbered fun _ _ => True)
      (logicalLines n none
        (physicalLines (before ++ ((x ++ ['\\']) ++ '\n' :: (blanks ++ y ++ after)))))
      (logicalLines n none (physicalLines (before ++ (x ++ y ++ after)))) := by
  obtain ⟨hfirst, hsecond⟩ := hline.broken hblanks
  have hne : x ++ y ≠ [] := by
    obtain ⟨c, hc, -⟩ := hx
    exact List.append_ne_nil_of_left_ne_nil (List.ne_nil_of_mem hc) y
  rw [hline.starts.physicalLines_append, hline.starts.physicalLines_append,
    logicalLines_append (u := none) nofun hclosed, logicalLines_append (u := none) nofun hclosed,
    hfirst.physicalLines (.inr (List.cons_ne_nil _ _)), hline.physicalLines (.inl hne)]
  refine List.rel_append ?_ ?_
  · exact renumbered_logicalLines (fun _ _ _ => trivial) trivial .none _
  · change List.Forall₂ _
      (logicalLines _ none ((x ++ ['\\']) :: physicalLines (blanks ++ y ++ after))) _
    by_cases htail : blanks ++ y ≠ [] ∨ after ≠ []
    · rw [hsecond.physicalLines htail]
      exact renumbered_broken hx hentry heven hy hblanks _
    · obtain ⟨htail, hafter⟩ := not_or.1 htail
      obtain ⟨rfl, rfl⟩ := List.append_eq_nil_iff.1 (not_not.1 htail)
      obtain rfl := not_not.1 hafter
      simp only [List.append_nil] at hentry ⊢
      exact renumbered_broken_end hx hentry heven

end Broken

/-- A line that starts an entry may be broken anywhere between its first character that is no blank
and its end, but not behind a backslash that escapes, nor before a blank: with a backslash before
the break, and with any blanks after it, the document is read as before. -/
theorem parse_broken_line (before x y after blanks : String)
    (hline : LineAt before.toList (x ++ y).toList after.toList)
    (hclosed : opensAfter false (physicalLines before.toList) = false)
    (hentry : isIgnored (dropBlanks (x ++ y).toList) = false)
    (hx : ∃ c ∈ x.toList, Text.isBlank c = false) (heven : continues x.toList = false)
    (hy : ∀ c ∈ y.toList.head?, Text.isBlank c = false)
    (hblanks : ∀ c ∈ blanks.toList, Text.isBlank c = true) :
    (parse (before ++ (x ++ "\\\n" ++ blanks ++ y) ++ after)).toOption =
      (parse (before ++ (x ++ y) ++ after)).toOption := by
  rw [String.toList_append] at hline hentry
  have hbroken : (before ++ (x ++ "\\\n" ++ blanks ++ y) ++ after).toList = before.toList ++
      ((x.toList ++ ['\\']) ++ '\n' :: (blanks.toList ++ y.toList ++ after.toList)) := by
    simp
  have hwhole : (before ++ (x ++ y) ++ after).toList =
      before.toList ++ (x.toList ++ y.toList ++ after.toList) := by
    simp
  have hlines := renumbered_broken_line (n := 1) hline hclosed hentry hx heven hy hblanks
  rw [parse, parse, entriesOf, entriesOf, hbroken, hwhole]
  exact ((sameReading_readEntries hlines).bind fun _ => .ok _).toOption

namespace Sample

/-- A line of an entry whose separator is not the first one, and which continues itself. -/
theorem broken_twice :
    (parse "! note \\\nke\\=y = a,\\\n \tb\\\r\n  c\n").toOption =
      some (.ofList [("ke=y", "a,bc")]) := by
  have hline : LineAt "! note \\\n".toList ("ke\\=y = a," ++ "b\\").toList "\r\n  c\n".toList :=
    ⟨⟨by decide, .inr (.inl ⟨_, rfl⟩)⟩, .inr rfl⟩
  have hwhole : (parse "! note \\\nke\\=y = a,b\\\r\n  c\n").toOption =
      some (.ofList [("ke=y", "a,bc")]) := by
    decide +kernel
  exact (parse_broken_line "! note \\\n" "ke\\=y = a," "b\\" "\r\n  c\n" " \t" hline rfl rfl
    ⟨'k', by decide, rfl⟩ rfl (by simp [Text.isBlank]) (by simp [Text.isBlank])).trans hwhole

end Sample

end LayeredConfig.Format.Flat
