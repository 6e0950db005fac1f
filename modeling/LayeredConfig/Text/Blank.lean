import LayeredConfig.Text.Ranges

/-!
White space: the Unicode property, the three characters that documents treat as blanks, and
trimming by either.
-/

namespace LayeredConfig.Text

/-- The ranges of code points with the Unicode property `White_Space`. -/
def whiteRanges : List (Nat × Nat) :=
  [(0x09, 0x0D), (0x20, 0x20), (0x85, 0x85), (0xA0, 0xA0), (0x1680, 0x1680), (0x2000, 0x200A),
   (0x2028, 0x2029), (0x202F, 0x202F), (0x205F, 0x205F), (0x3000, 0x3000)]

/-- Whether a character has the Unicode property `White_Space`. -/
def isWhite (c : Char) : Bool := inRanges whiteRanges c.toNat

/-- A space, a tab or a form feed: the blanks of a line in a flat document. -/
def isBlank (c : Char) : Bool := c = ' ' || c = '\t' || c = '\x0c'

def dropEndWhile (p : Char → Bool) (s : List Char) : List Char :=
  (s.reverse.dropWhile p).reverse

theorem dropEndWhile_concat {p : Char → Bool} {c : Char} (h : p c = false) (s : List Char) :
    dropEndWhile p (s ++ [c]) = s ++ [c] := by
  rw [dropEndWhile, List.reverse_append, List.reverse_singleton, List.singleton_append,
    List.dropWhile_cons_of_neg (by simp [h]), List.reverse_cons, List.reverse_reverse]

theorem dropEndWhile_concat_of_pos {p : Char → Bool} {c : Char} (h : p c = true) (s : List Char) :
    dropEndWhile p (s ++ [c]) = dropEndWhile p s := by
  rw [dropEndWhile, List.reverse_append, List.reverse_singleton, List.singleton_append,
    List.dropWhile_cons_of_pos h, dropEndWhile]

theorem dropEndWhile_append {p : Char → Bool} {c : Char} (h : p c = false) (s t : List Char) :
    dropEndWhile p (s ++ c :: t) = s ++ c :: dropEndWhile p t := by
  have hsplit : (s ++ c :: t).reverse = t.reverse ++ (s ++ [c]).reverse := by simp
  have hstop : (s ++ [c]).reverse.dropWhile p = (s ++ [c]).reverse := by simp [h]
  rw [dropEndWhile, hsplit, List.dropWhile_append, hstop, dropEndWhile]
  split
  · rename_i hnil
    rw [List.isEmpty_iff.1 hnil, List.reverse_reverse, List.reverse_nil]
  · simp

def trimWhile (p : Char → Bool) (s : List Char) : List Char :=
  dropEndWhile p (s.dropWhile p)

def trim (s : List Char) : List Char := trimWhile isWhite s

end LayeredConfig.Text
