import LayeredConfig.Proofs.File.Place

/-!
The way that a path takes. Making the directories that are missing on it changes nothing where the
path leads somewhere already; and in a tree in which nothing stands outside a directory, a path that
does not go up again from where nothing stands leads to nothing new.
-/

namespace LayeredConfig.FileSystem

variable {fs fs' : FileSystem} {here place : Place} {front back names : List String}
  {path : String} {kind : IoKind} {result : Except IoKind Unit}

theorem walk_append (fs : FileSystem) (here : Place) (front back : List String) :
    fs.walk here (front ++ back) = fs.walk here front >>= fun there => fs.walk there back := by
  induction front generalizing here with
  | nil => rfl
  | cons name front ih =>
      rw [List.cons_append, walk, walk]
      cases fs.requireDirectory here with
      | error e => rfl
      | ok _ => exact ih (step here name)

theorem directory_of_walk (h : fs.walk here (front ++ back) = .ok place) (hback : back ≠ []) :
    fs.walk here front = .ok (front.foldl step here) ∧
      fs.node? (front.foldl step here) = some .directory := by
  rw [walk_append] at h
  obtain ⟨there, hfront, hrest⟩ := bind_eq_ok h
  obtain rfl := walk_eq_ok hfront
  refine ⟨hfront, ?_⟩
  cases back with
  | nil => exact absurd rfl hback
  | cons name back =>
      rw [walk] at hrest
      obtain ⟨_, hdir, -⟩ := bind_eq_ok hrest
      exact requireDirectory_eq_ok_iff.1 hdir

theorem walk_eq_error (h : fs.walk here names = .error kind) :
    ∃ front back, names = front ++ back ∧ back ≠ [] ∧
      fs.walk here front = .ok (front.foldl step here) ∧
        fs.requireDirectory (front.foldl step here) = .error kind := by
  induction names generalizing here with
  | nil => cases h
  | cons name names ih =>
      rw [walk] at h
      cases hdir : fs.requireDirectory here with
      | error e =>
          rw [hdir] at h
          cases h
          exact ⟨[], name :: names, rfl, List.cons_ne_nil _ _, rfl, hdir⟩
      | ok _ =>
          rw [hdir] at h
          obtain ⟨front, back, rfl, hback, hfront, herror⟩ := ih h
          refine ⟨name :: front, back, rfl, hback, ?_, herror⟩
          rw [walk, hdir]
          exact hfront

theorem walk_concat {last : String} (h : fs.walk here (front ++ [last]) = .ok place)
    (other : String) : fs.walk here (front ++ [other]) = .ok (step (front.foldl step here) other) := by
  obtain ⟨hfront, hdir⟩ := directory_of_walk h (List.cons_ne_nil last [])
  rw [walk_append, hfront]
  change fs.walk _ [other] = _
  rw [walk, requireDirectory_eq_ok_iff.2 hdir]
  rfl

theorem locate_of_staging (hpath : path ≠ "") (h : fs.locate (path ++ ".tmp") = .ok place)
    (hdir : fs.node? place ≠ some .directory) : ∃ own, fs.locate path = .ok own := by
  have hslash : '/' ∉ ".tmp".toList := by decide
  have hlonger : path ++ ".tmp" ≠ "" := by simp
  rw [locate, if_neg hlonger] at h
  rw [locate, if_neg hpath]
  have hsteps := stepsOf_append hslash fs path
  rw [String.ofList_toList] at hsteps
  rcases hsteps with hsteps | hhome | hhome
  · obtain ⟨init, last, hshort, hlong⟩ := steps_append hslash (by decide)
      ((fs.belowHome? path).getD path.toList)
    rw [hsteps, hlong] at h
    rw [stepsOf, hshort]
    exact ⟨_, walk_concat h _⟩
  · rw [stepsOf, hhome]
    exact ⟨[], rfl⟩
  · rw [stepsOf, hhome] at h
    obtain rfl : [] = place := Except.ok.inj h
    exact absurd rfl hdir

theorem makeDirectories_of_walk (h : fs.walk here (names ++ back) = .ok place) (hback : back ≠ []) :
    (makeDirectories here names).run.run fs = (.ok (), fs) := by
  induction names generalizing here with
  | nil => rfl
  | cons name names ih =>
      have hpassed : fs.walk here ([name] ++ (names ++ back)) = .ok place := h
      have hdir := (directory_of_walk hpassed (by simp [hback])).2
      rw [List.cons_append, walk] at h
      obtain ⟨_, -, hrest⟩ := bind_eq_ok h
      rw [run_makeDirectories_cons]
      change fs.node? (step here name) = some .directory at hdir
      rw [hdir]
      exact ih hrest

theorem parentSteps_cases (names : List String) : parentSteps names = [] ∨
    ∃ last dots, names = parentSteps names ++ last :: dots ∧ last ≠ "." := by
  obtain ⟨dots, hdots⟩ := List.dropWhile_suffix (· = ".") (l := names.reverse)
  cases hnames : names.reverse.dropWhile (· = ".") with
  | nil =>
      left
      rw [parentSteps, hnames]
      rfl
  | cons last rest =>
      right
      have hparent : parentSteps names = rest.reverse := by
        rw [parentSteps, hnames]
        rfl
      refine ⟨last, dots.reverse, ?_, ?_⟩
      · rw [hnames] at hdots
        rw [hparent, ← List.reverse_reverse names, ← hdots]
        simp
      · have hhead := List.head?_dropWhile_not (fun name => decide (name = ".")) names.reverse
        rw [hnames] at hhead
        simpa using hhead

theorem makeParents_of_locate (h : fs.locate path = .ok place) :
    (makeParents path).run.run fs = (.ok (), fs) := by
  rw [locate] at h
  split at h
  · cases h
  · rw [run_makeParents]
    rcases parentSteps_cases (fs.stepsOf path) with hnil | ⟨last, dots, hsteps, -⟩
    · rw [hnil]
      rfl
    · rw [hsteps] at h
      exact makeDirectories_of_walk h (List.cons_ne_nil last dots)

theorem made_of_run (h : (makeDirectories here names).run.run fs = (result, fs')) (q : Place) :
    fs'.node? q = fs.node? q ∨ ∃ front back, names = front ++ back ∧
      fs.node? (front.foldl step here) = none ∧
        placeText (front.foldl step here) = placeText q := by
  induction names generalizing here fs with
  | nil =>
      cases h
      exact .inl rfl
  | cons name names ih =>
      rw [run_makeDirectories_cons] at h
      split at h
      · rcases ih h with hsame | ⟨front, back, rfl, hnone, htext⟩
        · exact .inl hsame
        · exact .inr ⟨name :: front, back, rfl, hnone, htext⟩
      · cases h
        exact .inl rfl
      · rename_i hnode
        split at h
        · cases h
          exact .inl rfl
        · have hplace : step here name ≠ [] := ne_nil_of_node? (by rw [hnode]; nofun)
          by_cases htext : placeText (step here name) = placeText q
          · exact .inr ⟨[name], names, rfl, hnode, htext⟩
          rcases ih h with hsame | ⟨front, back, rfl, hnone, htext'⟩
          · left
            rw [hsame]
            by_cases hroot : q = []
            · rw [hroot]
              rfl
            · rw [node?_setNode _ _ _ hroot, if_neg htext]
          · refine .inr ⟨name :: front, back, rfl, ?_, htext'⟩
            rcases (filled_setNode hnode).node (front.foldl step (step here name)) with hsame | hnew
            · exact hsame ▸ hnone
            · exact hnew.1

/-- What stands somewhere stands in a directory, and a look at something is refused only in a
directory that is there. -/
structure Orderly (fs : FileSystem) : Prop where
  enclosed : ∀ place name node, fs.node? (place ++ [name]) = some node →
    fs.node? place = some .directory
  inspected : ∀ place name kind, fs.refusal .inspect (place ++ [name]) = some kind →
    fs.node? place = some .directory

/-- A path does not go up again from where nothing stands. -/
def Straight (fs : FileSystem) (path : String) : Prop :=
  ∀ front back, fs.stepsOf path = front ++ back → fs.walk [] front = .ok (front.foldl step []) →
    fs.node? (front.foldl step []) = none → ∀ name ∈ back, name ≠ ".."

theorem ne_empty_of_mem_stepsOf {name : String} (h : name ∈ fs.stepsOf path) : name ≠ "" := by
  rw [stepsOf, steps] at h
  obtain ⟨piece, -, rfl⟩ := List.mem_map.1 h
  split
  · decide
  · rename_i hpiece
    simpa using hpiece

theorem step_cases {name : String} (h : name ≠ "..") (here : Place) :
    step here name = here ∧ name = "." ∨ step here name = here ++ [name] ∧ name ≠ "." := by
  rw [step]
  by_cases hdot : name = "."
  · exact .inl ⟨if_pos hdot, hdot⟩
  · rw [if_neg hdot, if_neg h]
    exact .inr ⟨rfl, hdot⟩

theorem length_placeText_foldl (h : ∀ name ∈ names, name ≠ "..") (here : Place) :
    (placeText here).length ≤ (placeText (names.foldl step here)).length := by
  induction names generalizing here with
  | nil => exact Nat.le_refl _
  | cons name names ih =>
      obtain ⟨hname, hnames⟩ := List.forall_mem_cons.1 h
      refine Nat.le_trans ?_ (ih hnames (step here name))
      rcases step_cases hname here with ⟨hstep, -⟩ | ⟨hstep, -⟩
      · exact Nat.le_of_eq (congrArg (fun there => (placeText there).length) hstep.symm)
      · rw [hstep]
        exact Nat.le_trans (Nat.le_add_right _ _) (length_placeText_concat here name).1

namespace Orderly

theorem node?_concat (h : fs.Orderly) (hnone : fs.node? here = none) (name : String) :
    fs.node? (here ++ [name]) = none := by
  cases hnode : fs.node? (here ++ [name]) with
  | none => rfl
  | some node =>
      rw [h.enclosed here name node hnode] at hnone
      cases hnone

theorem node?_foldl (h : fs.Orderly) (hnone : fs.node? here = none) (hup : ∀ name ∈ names, name ≠ "..") :
    fs.node? (names.foldl step here) = none := by
  induction names generalizing here with
  | nil => exact hnone
  | cons name names ih =>
      obtain ⟨hname, hnames⟩ := List.forall_mem_cons.1 hup
      refine ih ?_ hnames
      rcases step_cases hname here with ⟨hstep, -⟩ | ⟨hstep, -⟩
      · rw [hstep]
        exact hnone
      · rw [hstep]
        exact h.node?_concat hnone name

theorem refusal_concat (h : fs.Orderly) (hnone : fs.node? here = none) (name : String) :
    fs.refusal .inspect (here ++ [name]) = none := by
  cases hrefusal : fs.refusal .inspect (here ++ [name]) with
  | none => rfl
  | some kind =>
      rw [h.inspected here name kind hrefusal] at hnone
      cases hnone

theorem refusal_foldl (h : fs.Orderly) (hnone : fs.node? here = none)
    (hrefusal : fs.refusal .inspect here = none) (hup : ∀ name ∈ names, name ≠ "..") :
    fs.refusal .inspect (names.foldl step here) = none := by
  induction names generalizing here with
  | nil => exact hrefusal
  | cons name names ih =>
      obtain ⟨hname, hnames⟩ := List.forall_mem_cons.1 hup
      rcases step_cases hname here with ⟨hstep, -⟩ | ⟨hstep, -⟩
      · rw [List.foldl_cons, hstep]
        exact ih hnone hrefusal hnames
      · rw [List.foldl_cons, hstep]
        exact ih (h.node?_concat hnone name) (h.refusal_concat hnone name) hnames

/-- With more directories, a way from where nothing stood ends as before or leads to its place. -/
theorem walk_below (h : fs.Orderly) (hfilled : Filled fs fs') (hnone : fs.node? here = none)
    (hup : ∀ name ∈ names, name ≠ "..") : fs'.walk here names = .error .notFound ∨
      fs'.walk here names = .ok (names.foldl step here) := by
  induction names generalizing here with
  | nil => exact .inr rfl
  | cons name names ih =>
      obtain ⟨hname, hnames⟩ := List.forall_mem_cons.1 hup
      have hone : ∀ n ∈ [name], n ≠ ".." := List.forall_mem_singleton.2 hname
      have hnext : fs.node? (step here name) = none := h.node?_foldl hnone hone
      rw [walk, requireDirectory]
      rcases hfilled.node here with hsame | ⟨-, hdir⟩
      · rw [hsame, hnone]
        exact .inl rfl
      · rw [hdir]
        exact ih hnext hnames

end Orderly

theorem node?_of_longer (hfront : fs.walk [] front = .ok (front.foldl step []))
    (hup : ∀ name ∈ back, name ≠ "..")
    (h : (makeDirectories [] (front ++ back)).run.run fs = (result, fs'))
    (hlonger : (placeText ((front ++ back).foldl step [])).length < (placeText place).length) :
    fs'.node? place = fs.node? place := by
  rcases made_of_run h place with hsame | ⟨made, rest, hmade, hnone, htext⟩
  · exact hsame
  exfalso
  have hbeyond : ∃ middle, made = front ++ middle ∧ back = middle ++ rest := by
    rcases List.append_eq_append_iff.1 hmade with hbeyond | ⟨short, hshort, hrest⟩
    · exact hbeyond
    · by_cases hempty : short = []
      · subst hempty
        exact ⟨[], by simpa using hshort.symm, by simpa using hrest.symm⟩
      · -- Before the end of a walk everything is there, so nothing is made.
        rw [hshort] at hfront
        rw [(directory_of_walk hfront hempty).2] at hnone
        cases hnone
  obtain ⟨middle, rfl, rfl⟩ := hbeyond
  have hrest : ∀ name ∈ rest, name ≠ ".." := fun name hmem => hup name (List.mem_append_right _ hmem)
  have hlength := length_placeText_foldl hrest ((front ++ middle).foldl step [])
  rw [← List.foldl_append, ← hmade, htext] at hlength
  omega

theorem length_placeText_parent {last : String} (hlast : last ≠ "") (hdot : last ≠ ".")
    (hup : ∀ name ∈ last :: back, name ≠ "..") :
    (placeText (front.foldl step [])).length <
      (placeText ((front ++ last :: back).foldl step [])).length := by
  obtain ⟨hname, hback⟩ := List.forall_mem_cons.1 hup
  have hstep : step (front.foldl step []) last = front.foldl step [] ++ [last] := by
    rw [step, if_neg hdot, if_neg hname]
  have hconcat := (length_placeText_concat (front.foldl step []) last).1
  have hrest := length_placeText_foldl hback (front.foldl step [] ++ [last])
  have hpos : 0 < last.length := Nat.pos_of_ne_zero fun hzero => hlast (String.length_eq_zero_iff.1 hzero)
  rw [List.foldl_append, List.foldl_cons, hstep]
  omega

theorem parentSteps_beyond (hsteps : names = front ++ back)
    (hfront : fs.walk [] front = .ok (front.foldl step [])) :
    (makeDirectories [] (parentSteps names)).run.run fs = (.ok (), fs) ∨
      ∃ middle last dots, parentSteps names = front ++ middle ∧ back = middle ++ last :: dots ∧
        last ≠ "." := by
  rcases parentSteps_cases names with hnil | ⟨last, dots, hlast, hdot⟩
  · rw [hnil]
    exact .inl rfl
  · rcases List.append_eq_append_iff.1 (hsteps.symm.trans hlast) with ⟨middle, hparent, hback⟩ |
      ⟨rest, hrest, hback⟩
    · exact .inr ⟨middle, last, dots, hparent, hback, hdot⟩
    · by_cases hempty : rest = []
      · subst hempty
        exact .inr ⟨[], last, dots, by simpa using hrest.symm, by simpa using hback.symm, hdot⟩
      · rw [hrest] at hfront
        exact .inl (makeDirectories_of_walk hfront hempty)

theorem locate_eq_walk (hextends : Extends fs fs') (hpath : path ≠ "")
    (hsteps : fs.stepsOf path = front ++ back)
    (hfront : fs.walk [] front = .ok (front.foldl step [])) :
    fs'.locate path = fs'.walk (front.foldl step []) back := by
  rw [locate, if_neg hpath, hextends.stepsOf, hsteps, walk_append, hextends.walk hfront]
  rfl

/-- Where a path leads to nothing, it still does when directories are made on its way. -/
theorem Orderly.inspect_below (h : fs.Orderly) (hpath : path ≠ "")
    (hsteps : fs.stepsOf path = front ++ back) (hback : back ≠ [])
    (hfront : fs.walk [] front = .ok (front.foldl step []))
    (hnone : fs.node? (front.foldl step []) = none) (hup : ∀ name ∈ back, name ≠ "..")
    (hmake : (makeParents path).run.run fs = (result, fs')) :
    fs.inspect path = .error .notFound ∧ fs'.inspect path = .error .notFound := by
  have hfilled : Filled fs fs' := filled_makeParents hmake
  have hwalk := locate_eq_walk hfilled.extends hpath hsteps hfront
  have hfails : fs.inspect path = .error .notFound := by
    cases back with
    | nil => exact absurd rfl hback
    | cons name back =>
        rw [inspect, locate_eq_walk (.refl fs) hpath hsteps hfront, walk, requireDirectory, hnone]
        rfl
  refine ⟨hfails, ?_⟩
  rw [run_makeParents] at hmake
  rcases parentSteps_beyond hsteps hfront with hunmade | ⟨middle, last, dots, hparent, rfl, hdot⟩
  · rw [hunmade] at hmake
    cases hmake
    exact hfails
  rcases h.walk_below hfilled hnone hup with herror | hplace
  · rw [inspect, hwalk, herror]
    rfl
  obtain ⟨hmiddle, hlast⟩ := List.forall_mem_append.1 hup
  obtain ⟨hname, hdots⟩ := List.forall_mem_cons.1 hlast
  have hbelow := h.node?_foldl hnone hmiddle
  have hrefusal : fs.refusal .inspect
      ((middle ++ last :: dots).foldl step (front.foldl step [])) = none := by
    have hstep := (step_cases hname (middle.foldl step (front.foldl step []))).resolve_left
      fun hstay => hdot hstay.2
    rw [List.foldl_append, List.foldl_cons, hstep.1]
    exact h.refusal_foldl (h.node?_concat hbelow last) (h.refusal_concat hbelow last) hdots
  have hnode : fs'.node? ((middle ++ last :: dots).foldl step (front.foldl step [])) = none := by
    have hnamed : last ≠ "" := by
      have hmem : last ∈ fs.stepsOf path := by
        rw [hsteps]
        simp
      exact ne_empty_of_mem_stepsOf hmem
    have hplaced : (front ++ middle ++ last :: dots).foldl step [] =
        (middle ++ last :: dots).foldl step (front.foldl step []) := by
      rw [List.append_assoc, List.foldl_append]
    have hlonger : (placeText ((front ++ middle).foldl step [])).length <
        (placeText ((middle ++ last :: dots).foldl step (front.foldl step []))).length := by
      rw [← hplaced]
      exact length_placeText_parent hnamed hdot hlast
    rw [hparent] at hmake
    rw [node?_of_longer hfront hmiddle hmake hlonger]
    exact h.node?_foldl hnone hup
  rw [inspect_of_locate (hwalk.trans hplace) (hfilled.refusal ▸ hrefusal), hnode]

theorem Orderly.inspect_made (h : fs.Orderly) (hstraight : fs.Straight path)
    (hmake : (makeParents path).run.run fs = (result, fs')) :
    fs' = fs ∨ ∃ kind, fs.inspect path = .error kind ∧ fs'.inspect path = .error kind := by
  have hfilled : Filled fs fs' := filled_makeParents hmake
  cases hlocate : fs.locate path with
  | ok place =>
      rw [makeParents_of_locate hlocate] at hmake
      cases hmake
      exact .inl rfl
  | error kind =>
      right
      by_cases hpath : path = ""
      · subst hpath
        exact ⟨.notFound, rfl, rfl⟩
      have hwalk := hlocate
      rw [locate, if_neg hpath] at hwalk
      obtain ⟨front, back, hsteps, hback, hfront, herror⟩ := walk_eq_error hwalk
      cases hnode : fs.node? (front.foldl step []) with
      | none =>
          have hup := hstraight front back hsteps hfront hnode
          exact ⟨.notFound, h.inspect_below hpath hsteps hback hfront hnode hup hmake⟩
      | some node =>
          refine ⟨kind, by rw [inspect, hlocate]; rfl, ?_⟩
          -- A directory lets the walk on, and a file stops it as before.
          rw [requireDirectory, hnode] at herror
          cases node with
          | directory => cases herror
          | file content =>
              cases herror
              cases back with
              | nil => exact absurd rfl hback
              | cons name back =>
                  have hsame : fs'.node? (front.foldl step []) = some (.file content) := by
                    rcases hfilled.node (front.foldl step []) with hsame | ⟨hnone, -⟩
                    · exact hsame.trans hnode
                    · rw [hnode] at hnone
                      cases hnone
                  rw [inspect, locate_eq_walk hfilled.extends hpath hsteps hfront, walk,
                    requireDirectory, hsame]
                  rfl

end LayeredConfig.FileSystem
