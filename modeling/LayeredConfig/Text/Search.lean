/-!
Searching a text: prefixes, the first place of a marker, and cutting a text around it.
-/

namespace LayeredConfig.Text

def dropPrefix? : List Char → List Char → Option (List Char)
  | [], s => some s
  | _ :: _, [] => none
  | p :: ps, c :: cs => if p = c then dropPrefix? ps cs else none

theorem dropPrefix?_append (p s : List Char) : dropPrefix? p (p ++ s) = some s := by
  induction p with
  | nil => rfl
  | cons c p ih => simpa [dropPrefix?] using ih

theorem eq_append_of_dropPrefix? {p s r : List Char} (h : dropPrefix? p s = some r) :
    s = p ++ r := by
  induction p generalizing s with
  | nil => simpa [dropPrefix?] using h
  | cons c p ih =>
    cases s with
    | nil => simp [dropPrefix?] at h
    | cons d s =>
      simp only [dropPrefix?] at h
      split at h
      · rename_i hcd
        rw [hcd, ih h, List.cons_append]
      · simp at h

theorem dropPrefix?_eq_some_iff {p s r : List Char} : dropPrefix? p s = some r ↔ s = p ++ r :=
  ⟨eq_append_of_dropPrefix?, fun h => h ▸ dropPrefix?_append p r⟩

theorem dropPrefix?_eq_none_iff {p s : List Char} : dropPrefix? p s = none ↔ ¬ p <+: s := by
  rw [Option.eq_none_iff_forall_ne_some]
  constructor
  · rintro h ⟨r, hr⟩
    exact h r (dropPrefix?_eq_some_iff.2 hr.symm)
  · intro h r hr
    exact h ⟨r, (dropPrefix?_eq_some_iff.1 hr).symm⟩

theorem forall_of_all {p : Char → Prop} [DecidablePred p] {s : List Char}
    (h : s.all (fun c => p c) = true) : ∀ c ∈ s, p c :=
  fun c hc => of_decide_eq_true (List.all_eq_true.1 h c hc)

/-- Cuts a text at the first place where a marker starts: what stands before and after it. -/
def splitFirst? (marker : List Char) : List Char → Option (List Char × List Char)
  | [] => (dropPrefix? marker []).map ([], ·)
  | c :: cs =>
    match dropPrefix? marker (c :: cs) with
    | some rest => some ([], rest)
    | none => (splitFirst? marker cs).map fun (before, after) => (c :: before, after)

theorem eq_append_of_splitFirst? {marker s a b : List Char}
    (h : splitFirst? marker s = some (a, b)) : s = a ++ marker ++ b := by
  induction s generalizing a b with
  | nil =>
    simp only [splitFirst?, Option.map_eq_some_iff, Prod.mk.injEq] at h
    obtain ⟨r, hr, rfl, rfl⟩ := h
    simpa using eq_append_of_dropPrefix? hr
  | cons c cs ih =>
    simp only [splitFirst?] at h
    split at h
    · rename_i rest hrest
      simp only [Option.some.injEq, Prod.mk.injEq] at h
      obtain ⟨rfl, rfl⟩ := h
      simpa using eq_append_of_dropPrefix? hrest
    · simp only [Option.map_eq_some_iff, Prod.mk.injEq] at h
      obtain ⟨⟨a', b'⟩, h', rfl, rfl⟩ := h
      simp [ih h']

theorem splitFirst?_self {marker : List Char} (b : List Char) (hm : marker ≠ []) :
    splitFirst? marker (marker ++ b) = some ([], b) := by
  cases marker with
  | nil => exact absurd rfl hm
  | cons m ms =>
    have hdrop := dropPrefix?_append (m :: ms) b
    rw [List.cons_append] at hdrop ⊢
    simp only [splitFirst?, hdrop]

theorem splitFirst?_cons {marker : List Char} {c : Char} {s : List Char}
    (h : dropPrefix? marker (c :: s) = none) :
    splitFirst? marker (c :: s) = (splitFirst? marker s).map fun r => (c :: r.1, r.2) := by
  simp only [splitFirst?, h]

theorem dropPrefix?_of_ne {m c : Char} (h : m ≠ c) (ms s : List Char) :
    dropPrefix? (m :: ms) (c :: s) = none := by
  simp only [dropPrefix?, h, if_false]

theorem splitFirst?_skip {m : Char} {a : List Char} (h : m ∉ a) (ms s : List Char) :
    splitFirst? (m :: ms) (a ++ s) = (splitFirst? (m :: ms) s).map fun r => (a ++ r.1, r.2) := by
  induction a with
  | nil => simp
  | cons c a ih =>
    have hne : m ≠ c := List.ne_of_not_mem_cons h
    rw [List.cons_append, splitFirst?_cons (dropPrefix?_of_ne hne ms _),
      ih (List.not_mem_of_not_mem_cons h), Option.map_map]
    rfl

theorem splitFirst?_append {m : Char} {a : List Char} (h : m ∉ a) (ms b : List Char) :
    splitFirst? (m :: ms) (a ++ (m :: ms ++ b)) = some (a, b) := by
  rw [splitFirst?_skip h, splitFirst?_self b (List.cons_ne_nil m ms), Option.map_some,
    List.append_nil]

theorem splitFirst?_of_not_mem {m : Char} {s : List Char} (h : m ∉ s) (ms : List Char) :
    splitFirst? (m :: ms) s = none := by
  have hskip := splitFirst?_skip h ms []
  rwa [List.append_nil] at hskip

/-- Cuts a text at the last place where a marker starts: what stands before and after it. -/
def splitLast? (marker : List Char) (s : List Char) : Option (List Char × List Char) :=
  (splitFirst? marker.reverse s.reverse).map fun (after, before) => (before.reverse, after.reverse)

theorem splitLast?_append {marker b : List Char} {m : Char} (hm : marker.getLast? = some m)
    (h : m ∉ b) (a : List Char) : splitLast? marker (a ++ (marker ++ b)) = some (a, b) := by
  obtain ⟨ms, rfl⟩ := List.getLast?_eq_some_iff.1 hm
  have hrev : m ∉ b.reverse := fun hmem => h (List.mem_reverse.1 hmem)
  have hsplit := splitFirst?_append hrev ms.reverse a.reverse
  simp only [splitLast?, List.reverse_append, List.reverse_cons, List.reverse_nil, List.nil_append,
    List.singleton_append, List.append_assoc] at hsplit ⊢
  rw [hsplit]
  simp

def containsText (marker s : List Char) : Bool := (splitFirst? marker s).isSome

/-- The pieces of a text between the characters that pass a test. -/
def splitBy (p : Char → Bool) : List Char → List (List Char)
  | [] => [[]]
  | c :: cs =>
    if p c then [] :: splitBy p cs
    else match splitBy p cs with
      | [] => [[c]]
      | piece :: rest => (c :: piece) :: rest

end LayeredConfig.Text
