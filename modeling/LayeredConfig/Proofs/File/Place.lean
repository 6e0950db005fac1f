import LayeredConfig.Proofs.Lookup.Steady
import LayeredConfig.World.FileSystem

/-!
What paths denote, and what the operations on files leave alone. No operation but the removal of a
file takes a directory away, so a way that is there stays. The staging file of a path never stands
at the place of the path itself.
-/

namespace LayeredConfig

theorem Text.splitBy_eq_singleton {p : Char → Bool} {t : List Char} (h : ∀ c ∈ t, p c = false) :
    Text.splitBy p t = [t] := by
  induction t with
  | nil => rfl
  | cons c t ih =>
      obtain ⟨hc, ht⟩ := List.forall_mem_cons.1 h
      rw [splitBy, if_neg (by rw [hc]; exact Bool.false_ne_true), ih ht]

theorem Text.splitBy_append {p : Char → Bool} {t : List Char} (h : ∀ c ∈ t, p c = false)
    (s : List Char) : ∃ init last, Text.splitBy p s = init ++ [last] ∧
      Text.splitBy p (s ++ t) = init ++ [last ++ t] := by
  induction s with
  | nil => exact ⟨[], [], rfl, Text.splitBy_eq_singleton h⟩
  | cons c s ih =>
      obtain ⟨init, last, hs, hst⟩ := ih
      rw [List.cons_append, splitBy, splitBy, hs, hst]
      split
      · exact ⟨[] :: init, last, rfl, rfl⟩
      · cases init with
        | nil => exact ⟨[], c :: last, rfl, rfl⟩
        | cons piece init => exact ⟨(c :: piece) :: init, last, rfl, rfl⟩

namespace FileSystem

/-- The place that a path denotes, whether or not a way leads to it. -/
def placeOf (home path : String) : Place := ((empty home).stepsOf path).foldl step []

theorem walk_eq_ok {fs : FileSystem} {here place : Place} {names : List String}
    (h : fs.walk here names = .ok place) : place = names.foldl step here := by
  induction names generalizing here with
  | nil =>
      cases h
      rfl
  | cons name names ih =>
      rw [walk] at h
      obtain ⟨_, -, h⟩ := bind_eq_ok h
      exact ih h

theorem locate_eq_ok {fs : FileSystem} {path : String} {place : Place}
    (h : fs.locate path = .ok place) : place = placeOf fs.home path := by
  rw [locate] at h
  split at h
  · cases h
  · exact walk_eq_ok h

/-- A later tree, in which all directories are still there. -/
structure Extends (fs fs' : FileSystem) : Prop where
  home : fs'.home = fs.home
  directory : ∀ place, fs.node? place = some .directory → fs'.node? place = some .directory

theorem Extends.refl (fs : FileSystem) : Extends fs fs := ⟨rfl, fun _ h => h⟩

theorem Extends.trans {fs fs' fs'' : FileSystem} (h : Extends fs fs') (h' : Extends fs' fs'') :
    Extends fs fs'' :=
  ⟨h'.home.trans h.home, fun place hplace => h'.directory place (h.directory place hplace)⟩

theorem requireDirectory_eq_ok_iff {fs : FileSystem} {place : Place} :
    fs.requireDirectory place = .ok () ↔ fs.node? place = some .directory := by
  rw [requireDirectory]
  cases fs.node? place with
  | none => exact ⟨nofun, nofun⟩
  | some node =>
      cases node with
      | directory => exact ⟨fun _ => rfl, fun _ => rfl⟩
      | file content => exact ⟨nofun, nofun⟩

theorem Extends.walk {fs fs' : FileSystem} (h : Extends fs fs') {here place : Place}
    {names : List String} (hwalk : fs.walk here names = .ok place) :
    fs'.walk here names = .ok place := by
  induction names generalizing here with
  | nil => exact hwalk
  | cons name names ih =>
      rw [FileSystem.walk] at hwalk ⊢
      obtain ⟨_, hdir, hwalk⟩ := bind_eq_ok hwalk
      have hdir' := h.directory here (requireDirectory_eq_ok_iff.1 hdir)
      rw [requireDirectory_eq_ok_iff.2 hdir']
      exact ih hwalk

theorem Extends.stepsOf {fs fs' : FileSystem} (h : Extends fs fs') (path : String) :
    fs'.stepsOf path = fs.stepsOf path := by
  unfold FileSystem.stepsOf belowHome?
  rw [h.home]

theorem Extends.locate {fs fs' : FileSystem} (h : Extends fs fs') {path : String} {place : Place}
    (hlocate : fs.locate path = .ok place) : fs'.locate path = .ok place := by
  rw [FileSystem.locate] at hlocate ⊢
  split at hlocate
  · cases hlocate
  · rename_i hpath
    rw [if_neg hpath, h.stepsOf]
    exact h.walk hlocate

theorem node?_setNode (fs : FileSystem) (place : Place) (node : Node) {q : Place} (hq : q ≠ []) :
    (fs.setNode place node).node? q =
      if placeText place = placeText q then some node else fs.node? q := by
  rw [node?, if_neg hq, node?, if_neg hq]
  exact KeyMap.get?_insert _ _ _ _

theorem node?_eraseNode (fs : FileSystem) (place : Place) {q : Place} (hq : q ≠ []) :
    (fs.eraseNode place).node? q =
      if placeText place = placeText q then none else fs.node? q := by
  rw [node?, if_neg hq, node?, if_neg hq]
  exact KeyMap.get?_erase _ _ _

theorem node?_congr (fs : FileSystem) {place q : Place} (hplace : place ≠ []) (hq : q ≠ [])
    (h : placeText place = placeText q) : fs.node? place = fs.node? q := by
  rw [node?, if_neg hplace, node?, if_neg hq, h]

theorem ne_nil_of_node? {fs : FileSystem} {place : Place}
    (h : fs.node? place ≠ some .directory) : place ≠ [] := by
  rintro rfl
  exact h rfl

theorem extends_of_elsewhere {fs fs' : FileSystem} {place : Place} (hhome : fs'.home = fs.home)
    (hplace : fs.node? place ≠ some .directory)
    (helsewhere : ∀ q, q ≠ [] → placeText place ≠ placeText q → fs'.node? q = fs.node? q) :
    Extends fs fs' := by
  refine ⟨hhome, ?_⟩
  intro q hq
  by_cases hroot : q = []
  · subst hroot
    rfl
  · have htext : placeText place ≠ placeText q := by
      intro htext
      exact hplace ((node?_congr fs (ne_nil_of_node? hplace) hroot htext).trans hq)
    exact (helsewhere q hroot htext).trans hq

theorem extends_setNode {fs : FileSystem} {place : Place}
    (h : fs.node? place ≠ some .directory) (node : Node) : Extends fs (fs.setNode place node) := by
  refine extends_of_elsewhere rfl h ?_
  intro q hq htext
  rw [node?_setNode fs place node hq, if_neg htext]

theorem extends_eraseNode {fs : FileSystem} {place : Place}
    (h : fs.node? place ≠ some .directory) : Extends fs (fs.eraseNode place) := by
  refine extends_of_elsewhere rfl h ?_
  intro q hq htext
  rw [node?_eraseNode fs place hq, if_neg htext]

theorem permit_eq_ok_iff {fs : FileSystem} {op : FileStep} {place : Place} :
    fs.permit op place = .ok () ↔ fs.refusal op place = none := by
  rw [permit]
  cases fs.refusal op place with
  | none => exact ⟨fun _ => rfl, fun _ => rfl⟩
  | some kind => exact ⟨nofun, nofun⟩

theorem inspect_of_locate {fs : FileSystem} {path : String} {place : Place}
    (hlocate : fs.locate path = .ok place) (hpermit : fs.refusal .inspect place = none) :
    fs.inspect path = match fs.node? place with
      | some node => .ok node
      | none => .error .notFound := by
  rw [inspect, hlocate]
  change (fs.permit .inspect place >>= _) = _
  rw [permit_eq_ok_iff.2 hpermit]
  rfl

theorem read_of_locate {fs : FileSystem} {path : String} {place : Place}
    (hlocate : fs.locate path = .ok place) (hpermit : fs.refusal .read place = none) :
    fs.read path = match fs.node? place with
      | some (.file (.text s)) => .ok s
      | some (.file (.binary _)) => .error .invalidData
      | some .directory => .error .isDirectory
      | none => .error .notFound := by
  rw [read, hlocate]
  change (fs.permit .read place >>= _) = _
  rw [permit_eq_ok_iff.2 hpermit]
  rfl

/-- A later tree, in which directories may stand where nothing stood. -/
structure Filled (fs fs' : FileSystem) : Prop where
  home : fs'.home = fs.home
  refusal : fs'.refusal = fs.refusal
  node : ∀ place, fs'.node? place = fs.node? place ∨
    fs.node? place = none ∧ fs'.node? place = some .directory

theorem Filled.refl (fs : FileSystem) : Filled fs fs := ⟨rfl, rfl, fun _ => .inl rfl⟩

theorem Filled.trans {fs fs' fs'' : FileSystem} (h : Filled fs fs') (h' : Filled fs' fs'') :
    Filled fs fs'' := by
  refine ⟨h'.home.trans h.home, h'.refusal.trans h.refusal, ?_⟩
  intro place
  rcases h.node place with hsame | ⟨hnone, hdir⟩
  · rw [← hsame]
    exact h'.node place
  · rcases h'.node place with hsame' | ⟨hnone', -⟩
    · exact .inr ⟨hnone, hsame'.trans hdir⟩
    · rw [hdir] at hnone'
      cases hnone'

theorem Filled.extends {fs fs' : FileSystem} (h : Filled fs fs') : Extends fs fs' := by
  refine ⟨h.home, ?_⟩
  intro place hplace
  rcases h.node place with hsame | ⟨hnone, -⟩
  · exact hsame.trans hplace
  · rw [hplace] at hnone
    cases hnone

theorem filled_setNode {fs : FileSystem} {place : Place} (h : fs.node? place = none) :
    Filled fs (fs.setNode place .directory) := by
  have hplace : place ≠ [] := ne_nil_of_node? (by rw [h]; nofun)
  refine ⟨rfl, rfl, ?_⟩
  intro q
  by_cases hroot : q = []
  · subst hroot
    exact .inl rfl
  · rw [node?_setNode fs place .directory hroot]
    split
    · rename_i htext
      exact .inr ⟨(node?_congr fs hplace hroot htext) ▸ h, rfl⟩
    · exact .inl rfl

theorem run_makeDirectories_cons (here : Place) (name : String) (names : List String)
    (fs : FileSystem) : (makeDirectories here (name :: names)).run.run fs =
      match fs.node? (step here name) with
      | some .directory => (makeDirectories (step here name) names).run.run fs
      | some (.file _) => (.error .notDirectory, fs)
      | none =>
        match fs.refusal .makeDirectory (step here name) with
        | some kind => (.error kind, fs)
        | none => (makeDirectories (step here name) names).run.run
          (fs.setNode (step here name) .directory) := by
  rw [makeDirectories]
  change StateT.run (ExceptT.run (match fs.node? (step here name) with
    | some .directory => makeDirectories (step here name) names
    | some (.file _) => throw .notDirectory
    | none => do
      fs.permit .makeDirectory (step here name)
      set (fs.setNode (step here name) .directory)
      makeDirectories (step here name) names)) fs = _
  cases fs.node? (step here name) with
  | some node =>
      cases node with
      | directory => rfl
      | file content => rfl
  | none =>
      rw [permit]
      cases fs.refusal .makeDirectory (step here name) with
      | some kind => rfl
      | none => rfl

theorem filled_makeDirectories {names : List String} {here : Place} {fs fs' : FileSystem}
    {result : Except IoKind Unit}
    (h : (makeDirectories here names).run.run fs = (result, fs')) : Filled fs fs' := by
  induction names generalizing here fs with
  | nil =>
      cases h
      exact .refl _
  | cons name names ih =>
      rw [run_makeDirectories_cons] at h
      split at h
      · exact ih h
      · cases h
        exact .refl _
      · rename_i hnode
        split at h
        · cases h
          exact .refl _
        · exact (filled_setNode hnode).trans (ih h)

theorem run_makeParents (path : String) (fs : FileSystem) : (makeParents path).run.run fs =
    (makeDirectories [] (parentSteps (fs.stepsOf path))).run.run fs := rfl

theorem filled_makeParents {path : String} {fs fs' : FileSystem} {result : Except IoKind Unit}
    (h : (makeParents path).run.run fs = (result, fs')) : Filled fs fs' := by
  rw [run_makeParents] at h
  exact filled_makeDirectories h

/-- Writing puts a file where no directory is, or does nothing. A refused write may put a part of the
content there. -/
theorem write_run {path : String} {content : Content} {fs fs' : FileSystem}
    {result : Except IoKind Unit} (h : (write path content).run.run fs = (result, fs')) :
    (∃ e, result = .error e) ∧ fs' = fs ∨ ∃ place stored, fs.locate path = .ok place ∧
      fs.node? place ≠ some .directory ∧ fs' = fs.setNode place (.file stored) ∧
        ((∃ e, result = .error e) ∨
          result = .ok () ∧ stored = content ∧ fs.refusal .write place = none) := by
  have hget : (get : FileAction FileSystem).run.run fs = (.ok fs, fs) := rfl
  rw [write, run_bind_of_ok hget] at h
  rcases run_bind_except h with ⟨e, -, rfl, rfl⟩ | ⟨place, hlocate, h⟩
  · exact .inl ⟨⟨e, rfl⟩, rfl⟩
  by_cases hnode : fs.node? place = some .directory
  · rw [if_pos hnode] at h
    cases h
    exact .inl ⟨⟨_, rfl⟩, rfl⟩
  rw [if_neg hnode] at h
  cases hrefused : fs.refusal .write place with
  | none =>
      rw [hrefused] at h
      cases h
      exact .inr ⟨place, content, hlocate, hnode, rfl, .inr ⟨rfl, rfl, hrefused⟩⟩
  | some kind =>
      rw [hrefused] at h
      cases h
      rw [leaveRemnant]
      cases fs.remnant place with
      | none => exact .inl ⟨⟨kind, rfl⟩, rfl⟩
      | some part => exact .inr ⟨place, part, hlocate, hnode, rfl, .inl ⟨kind, rfl⟩⟩

/-- Moving a file takes it from its place to another one, where no directory is, or does nothing. -/
theorem rename_run {source target : String} {fs fs' : FileSystem} {result : Except IoKind Unit}
    (h : (rename source target).run.run fs = (result, fs')) :
    (∃ e, result = .error e) ∧ fs' = fs ∨ result = .ok () ∧ ∃ old new node,
      fs.locate source = .ok old ∧ fs.locate target = .ok new ∧ fs.node? old = some node ∧
        fs.node? new ≠ some .directory ∧ fs.refusal .rename new = none ∧
          fs' = (fs.eraseNode old).setNode new node := by
  have hget : (get : FileAction FileSystem).run.run fs = (.ok fs, fs) := rfl
  rw [rename, run_bind_of_ok hget] at h
  rcases run_bind_except h with ⟨e, -, rfl, rfl⟩ | ⟨old, hold, h⟩
  · exact .inl ⟨⟨e, rfl⟩, rfl⟩
  rcases run_bind_except h with ⟨e, -, rfl, rfl⟩ | ⟨new, hnew, h⟩
  · exact .inl ⟨⟨e, rfl⟩, rfl⟩
  cases hnode : fs.node? old with
  | none =>
      rw [hnode] at h
      cases h
      exact .inl ⟨⟨_, rfl⟩, rfl⟩
  | some node =>
      rw [hnode] at h
      dsimp only at h
      by_cases hdir : fs.node? new = some .directory
      · rw [if_pos hdir] at h
        cases h
        exact .inl ⟨⟨_, rfl⟩, rfl⟩
      · rw [if_neg hdir] at h
        rcases run_bind_except h with ⟨e, -, rfl, rfl⟩ | ⟨_, hpermit, h⟩
        · exact .inl ⟨⟨e, rfl⟩, rfl⟩
        cases h
        exact .inr ⟨rfl, old, new, node, hold, hnew, hnode, hdir, permit_eq_ok_iff.1 hpermit, rfl⟩

theorem belowHome?_eq_none {fs : FileSystem} {path : String}
    (h : ∀ rest, Text.dropPrefix? fs.home.toList path.toList = some rest →
      ∃ c cs, rest = c :: cs ∧ c ≠ '/') : fs.belowHome? path = none := by
  rw [belowHome?]
  cases hdrop : Text.dropPrefix? fs.home.toList path.toList with
  | none => rfl
  | some rest =>
      obtain ⟨c, cs, rfl, hc⟩ := h rest hdrop
      simp [hc]

theorem stepsOf_append {t : List Char} (ht : '/' ∉ t) (fs : FileSystem) (path : String) :
    fs.stepsOf (path ++ String.ofList t) = steps ((fs.belowHome? path).getD path.toList ++ t) ∨
      fs.belowHome? path = some [] ∨ fs.belowHome? (path ++ String.ofList t) = some [] := by
  have happend : (path ++ String.ofList t).toList = path.toList ++ t := by simp
  cases hdrop : Text.dropPrefix? fs.home.toList path.toList with
  | some rest =>
      have hlonger : Text.dropPrefix? fs.home.toList (path ++ String.ofList t).toList =
          some (rest ++ t) := by
        rw [happend, Text.dropPrefix?_eq_some_iff, ← List.append_assoc,
          Text.dropPrefix?_eq_some_iff.1 hdrop]
      cases rest with
      | nil =>
          refine .inr (.inl ?_)
          rw [belowHome?, hdrop]
      | cons c rest =>
          left
          by_cases hc : c = '/'
          · subst hc
            rw [stepsOf, belowHome?, belowHome?, hdrop, hlonger]
            rfl
          · have hnone : fs.belowHome? path = none :=
              belowHome?_eq_none fun _ h => ⟨c, rest, Option.some.inj (h.symm.trans hdrop), hc⟩
            have hnone' : fs.belowHome? (path ++ String.ofList t) = none :=
              belowHome?_eq_none fun _ h =>
                ⟨c, rest ++ t, Option.some.inj (h.symm.trans hlonger), hc⟩
            rw [stepsOf, hnone, hnone', Option.getD_none, Option.getD_none, happend]
  | none =>
      have hnone : fs.belowHome? path = none :=
        belowHome?_eq_none fun rest h => by rw [hdrop] at h; cases h
      -- Only the longer path can begin with the path of the working directory, which then ends
      -- within the text that is new.
      have hnew : ∀ rest, Text.dropPrefix? fs.home.toList (path ++ String.ofList t).toList =
          some rest → ∃ middle, t = middle ++ rest := by
        intro rest hrest
        rw [happend, Text.dropPrefix?_eq_some_iff, List.append_eq_append_iff] at hrest
        rcases hrest with ⟨middle, -, ht⟩ | ⟨middle, hpath, -⟩
        · exact ⟨middle, ht⟩
        · rw [Text.dropPrefix?_eq_some_iff.2 hpath] at hdrop
          cases hdrop
      by_cases hhome : Text.dropPrefix? fs.home.toList (path ++ String.ofList t).toList = some []
      · refine .inr (.inr ?_)
        rw [belowHome?, hhome]
      · left
        have hnone' : fs.belowHome? (path ++ String.ofList t) = none := by
          refine belowHome?_eq_none fun rest hrest => ?_
          cases rest with
          | nil => exact absurd hrest hhome
          | cons c cs =>
              obtain ⟨middle, hmiddle⟩ := hnew _ hrest
              refine ⟨c, cs, rfl, ?_⟩
              rintro rfl
              exact ht (hmiddle ▸ by simp)
        rw [stepsOf, hnone, hnone', Option.getD_none, Option.getD_none, happend]

theorem placeOf_of_home {home path : String} (h : (empty home).belowHome? path = some []) :
    placeOf home path = [] := by
  rw [placeOf, stepsOf, h]
  rfl

theorem steps_append {t : List Char} (ht : '/' ∉ t) (hne : t ≠ []) (s : List Char) :
    ∃ init last, steps s = init ++ [if last = [] then "." else String.ofList last] ∧
      steps (s ++ t) = init ++ [String.ofList (last ++ t)] := by
  obtain ⟨init, last, hs, hst⟩ := Text.splitBy_append (p := (· = '/')) (t := t)
    (fun c hc => decide_eq_false fun h => ht (h ▸ hc)) s
  refine ⟨init.map fun name => if name = [] then "." else String.ofList name, last, ?_, ?_⟩
  · rw [steps, hs, List.map_append, List.map_singleton]
  · rw [steps, hst, List.map_append, List.map_singleton, if_neg (by simp [hne])]

theorem length_placeText_concat (here : Place) (name : String) :
    (placeText here).length + name.length ≤ (placeText (here ++ [name])).length ∧
      (placeText (here ++ [name])).length ≤ (placeText here).length + name.length + 1 := by
  by_cases h : here = []
  · subst h
    simp [placeText]
  · have htext : placeText (here ++ [name]) = placeText here ++ "/" ++ name := by
      rw [placeText, placeText, String.intercalate_append_of_ne_nil h (List.cons_ne_nil name []),
        String.intercalate_singleton]
    have hslash : "/".length = 1 := rfl
    rw [htext, String.length_append, String.length_append, hslash]
    omega

theorem length_placeText_dropLast (here : Place) :
    (placeText here.dropLast).length ≤ (placeText here).length := by
  rcases List.eq_nil_or_concat here with rfl | ⟨front, name, rfl⟩
  · exact Nat.le_refl _
  · rw [List.concat_eq_append, List.dropLast_concat]
    exact Nat.le_trans (Nat.le_add_right _ _) (length_placeText_concat front name).1

theorem length_placeText_step (here : Place) (name : String) :
    (placeText (step here name)).length ≤ (placeText here).length + name.length + 1 := by
  rw [step]
  split
  · omega
  · split
    · have := length_placeText_dropLast here
      omega
    · exact (length_placeText_concat here name).2

theorem step_of_length {name : String} (h : 2 < name.length) (here : Place) :
    step here name = here ++ [name] := by
  have hdot : name ≠ "." := by
    rintro rfl
    exact absurd h (by decide)
  have hup : name ≠ ".." := by
    rintro rfl
    exact absurd h (by decide)
  rw [step, if_neg hdot, if_neg hup]

theorem placeText_staging_ne {home path : String} (hplace : placeOf home path ≠ [])
    (hstaging : placeOf home (path ++ ".tmp") ≠ []) :
    placeText (placeOf home (path ++ ".tmp")) ≠ placeText (placeOf home path) := by
  have hslash : '/' ∉ ".tmp".toList := by decide
  rcases stepsOf_append hslash (empty home) path with hsteps | hhome | hhome
  · obtain ⟨init, last, hpath, hlonger⟩ := steps_append hslash (by decide)
      (((empty home).belowHome? path).getD path.toList)
    have hlength : (String.ofList (last ++ ".tmp".toList)).length = last.length + 4 := by
      rw [String.length_ofList, List.length_append]
      rfl
    have hold : placeOf home (path ++ ".tmp") =
        init.foldl step [] ++ [String.ofList (last ++ ".tmp".toList)] := by
      have hlong : 2 < (String.ofList (last ++ ".tmp".toList)).length := by
        rw [hlength]
        omega
      have hstep := step_of_length hlong (init.foldl step [])
      rw [String.ofList_toList, hlonger] at hsteps
      rw [placeOf, hsteps, List.foldl_append, List.foldl_cons, hstep]
      rfl
    have hnew : placeOf home path =
        step (init.foldl step []) (if last = [] then "." else String.ofList last) := by
      rw [placeOf, stepsOf, hpath, List.foldl_append]
      rfl
    have hname : (if last = [] then "." else String.ofList last).length ≤ last.length + 1 := by
      split
      · exact Nat.le_add_left 1 _
      · rw [String.length_ofList]
        exact Nat.le_add_right _ 1
    intro htext
    have hlong := (length_placeText_concat (init.foldl step [])
      (String.ofList (last ++ ".tmp".toList))).1
    have hshort := length_placeText_step (init.foldl step [])
      (if last = [] then "." else String.ofList last)
    rw [← hold, htext, hlength] at hlong
    rw [← hnew] at hshort
    omega
  · exact absurd (placeOf_of_home hhome) hplace
  · rw [String.ofList_toList] at hhome
    exact absurd (placeOf_of_home hhome) hstaging

end FileSystem

end LayeredConfig
