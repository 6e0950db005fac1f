import LayeredConfig.Proofs.File.Way

/-!
Paths of one file. They agree on where the file is, but a path that goes up again from a missing
directory leads nowhere, although it denotes a file that is there. Paths share a file if none of
them overlooks it in this way.
-/

namespace LayeredConfig.FileSystem

variable {ι : Type} {paths : ι → String} {place q : Place} {fs fs' : FileSystem}

/-- As long as no directory is removed, a file to which one of the paths leads is overlooked by none
of them. -/
def Together (paths : ι → String) (place : Place) (fs : FileSystem) : Prop :=
  ∀ fs', Extends fs fs' → ∀ content i, fs'.node? place = some (.file content) →
    fs'.locate (paths i) = .ok place → ∀ j, fs'.locate (paths j) ≠ .error .notFound

/-- A walk passes all that is above its end. -/
theorem directory_above_walk {here : Place} {names : List String}
    (habove : ∀ q, q <+: here → q ≠ here → fs.node? q = some .directory)
    (h : fs.walk here names = .ok place) (hq : q <+: place) (hne : q ≠ place) :
    fs.node? q = some .directory := by
  induction names generalizing here with
  | nil =>
      cases h
      exact habove q hq hne
  | cons name names ih =>
      rw [walk] at h
      obtain ⟨_, hdir, h⟩ := bind_eq_ok h
      refine ih ?_ h
      intro q hq hne
      have hbelow : ∀ q, q <+: here → fs.node? q = some .directory := by
        intro q hq
        by_cases hend : q = here
        · rw [hend]
          exact requireDirectory_eq_ok_iff.1 hdir
        · exact habove q hq hend
      rw [step] at hq hne
      split at hq
      · exact hbelow q hq
      · split at hq
        · exact hbelow q (hq.trans (List.dropLast_prefix here))
        · rename_i hdot hup
          rw [if_neg hdot, if_neg hup] at hne
          exact hbelow q ((List.prefix_concat_iff.1 hq).resolve_left hne)

theorem prefix_foldl_step {names : List String} (hup : ∀ name ∈ names, name ≠ "..")
    (here : Place) : here <+: names.foldl step here := by
  induction names generalizing here with
  | nil => exact List.prefix_rfl
  | cons name names ih =>
      obtain ⟨hname, hnames⟩ := List.forall_mem_cons.1 hup
      refine List.IsPrefix.trans ?_ (ih hnames (step here name))
      rcases step_cases hname here with ⟨hstep, -⟩ | ⟨hstep, -⟩
      · exact ⟨[], by rw [hstep, List.append_nil]⟩
      · exact ⟨[name], hstep.symm⟩

theorem placeOf_empty (home : String) : placeOf home "" = [] := by
  have hbelow : ((empty home).belowHome? "").getD "".toList = [] := by
    unfold belowHome? Text.dropPrefix?
    cases (empty home).home.toList with
    | nil => rfl
    | cons c cs => rfl
  rw [placeOf, stepsOf, hbelow]
  rfl

theorem together_of_eq {path : String} (h : ∀ i, paths i = path) : Together paths place fs := by
  intro fs' _ content i _ hlocate j
  rw [h] at hlocate ⊢
  rw [hlocate]
  nofun

/-- Paths overlook nothing if they do not go up, or lead to the place from the start. -/
theorem together_of_level_or_located (hdenoted : ∀ i, placeOf fs.home (paths i) = place)
    (h : ∀ i, (∀ name ∈ fs.stepsOf (paths i), name ≠ "..") ∨ fs.locate (paths i) = .ok place) :
    Together paths place fs := by
  intro fs' hextends content i hnode hi j hj
  rcases h j with hup | hlocate
  · have hroot : place ≠ [] := ne_nil_of_node? (by rw [hnode]; nofun)
    have hpath : ∀ i, paths i ≠ "" := by
      intro i hempty
      rw [← hdenoted i, hempty, placeOf_empty] at hroot
      exact hroot rfl
    have habove : ∀ q, q <+: ([] : Place) → q ≠ [] → fs'.node? q = some .directory :=
      fun q hq hne => absurd (List.prefix_nil.1 hq) hne
    rw [locate, if_neg (hpath i)] at hi
    rw [locate, if_neg (hpath j)] at hj
    obtain ⟨front, back, hsteps, -, -, hmissing⟩ := walk_eq_error hj
    -- A walk that finds nothing ends above the place, where the other walk has found directories.
    have hend : (front ++ back).foldl step [] = place := by
      rw [← hsteps, hextends.stepsOf, ← hdenoted j]
      rfl
    have hprefix : front.foldl step [] <+: place := by
      rw [← hend, List.foldl_append]
      refine prefix_foldl_step (fun name hmem => hup name ?_) _
      rw [← hextends.stepsOf, hsteps]
      exact List.mem_append_right front hmem
    rw [requireDirectory] at hmissing
    by_cases hplace : front.foldl step [] = place
    · rw [hplace, hnode] at hmissing
      cases hmissing
    · rw [directory_above_walk habove hi hprefix hplace] at hmissing
      cases hmissing
  · rw [hextends.locate hlocate] at hj
    cases hj

/-- Paths that share a file: they denote its place, one of them leads to what stands there, and they
overlook nothing. A refusal to look at a file does not tell that it is missing. -/
structure Shared (paths : ι → String) (place : Place) (fs : FileSystem) : Prop where
  denoted : ∀ i, placeOf fs.home (paths i) = place
  together : Together paths place fs
  reached : ∀ content, fs.node? place = some (.file content) → Nonempty ι →
    ∃ i, fs.locate (paths i) = .ok place
  inspected : ∀ q, fs.refusal .inspect q ≠ some .notFound

theorem Shared.later (h : Shared paths place fs) (hextends : Extends fs fs')
    (hrefusal : fs'.refusal = fs.refusal)
    (hreached : ∀ content, fs'.node? place = some (.file content) →
      ∃ i, fs'.locate (paths i) = .ok place) : Shared paths place fs' := by
  refine ⟨?_, fun fs'' hlater => h.together fs'' (hextends.trans hlater),
    fun content hnode _ => hreached content hnode, ?_⟩
  · intro i
    rw [hextends.home]
    exact h.denoted i
  · rw [hrefusal]
    exact h.inspected

theorem Shared.node?_of_inspect (h : Shared paths place fs) {i : ι}
    (hinspect : fs.inspect (paths i) = .error .notFound) (content : Content) :
    fs.node? place ≠ some (.file content) := by
  intro hnode
  obtain ⟨j, hj⟩ := h.reached content hnode ⟨i⟩
  cases hlocate : fs.locate (paths i) with
  | error kind =>
      rw [inspect, hlocate] at hinspect
      cases hinspect
      exact h.together fs (.refl fs) content j hnode hj i hlocate
  | ok q =>
      obtain rfl : q = place := (locate_eq_ok hlocate).trans (h.denoted i)
      cases hrefused : fs.refusal .inspect q with
      | some kind =>
          rw [inspect, hlocate] at hinspect
          change (fs.permit .inspect q >>= _) = _ at hinspect
          rw [permit, hrefused] at hinspect
          cases hinspect
          exact h.inspected q hrefused
      | none =>
          rw [inspect_of_locate hlocate hrefused, hnode] at hinspect
          cases hinspect

theorem read_eq_ok {path text : String} (h : fs.read path = .ok text) :
    ∃ place, fs.locate path = .ok place ∧ fs.node? place = some (.file (.text text)) := by
  rw [read] at h
  obtain ⟨place, hlocate, h⟩ := bind_eq_ok h
  obtain ⟨_, -, h⟩ := bind_eq_ok h
  refine ⟨place, hlocate, ?_⟩
  cases hnode : fs.node? place with
  | none =>
      rw [hnode] at h
      cases h
  | some node =>
      rw [hnode] at h
      cases node with
      | directory => cases h
      | file content =>
          cases content with
          | binary size => cases h
          | text s =>
              cases h
              rfl

/-- A file that can be read by each of its paths is shared by them, and one that is missing by paths
that overlook nothing. -/
theorem shared_of_missing_or_readable (hdenoted : ∀ i, placeOf fs.home (paths i) = place)
    (hinspected : ∀ q, fs.refusal .inspect q ≠ some .notFound)
    (h : fs.node? place = none ∧ Together paths place fs ∨
      ∀ i, ∃ text, fs.read (paths i) = .ok text) : Shared paths place fs := by
  rcases h with ⟨hmissing, htogether⟩ | hreadable
  · refine ⟨hdenoted, htogether, ?_, hinspected⟩
    intro content hnode
    rw [hmissing] at hnode
    cases hnode
  · have hreached : ∀ i, fs.locate (paths i) = .ok place := by
      intro i
      obtain ⟨text, hread⟩ := hreadable i
      obtain ⟨q, hlocate, -⟩ := read_eq_ok hread
      rw [hlocate, locate_eq_ok hlocate, hdenoted]
    refine ⟨hdenoted, together_of_level_or_located hdenoted fun i => .inr (hreached i), ?_,
      hinspected⟩
    rintro - - ⟨i⟩
    exact ⟨i, hreached i⟩

end LayeredConfig.FileSystem
