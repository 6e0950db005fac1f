import LayeredConfig.Proofs.File.Reload

/-!
Commits that fail. Whichever step it is, the file stands as it stood and the request keeps its
changes. The directories and the staging file that a failed commit may leave behind change no answer
of the provider, unless its path goes up again out of a directory that was missing.
-/

namespace LayeredConfig

/-- A commit that fails leaves the request, and the world too if it did not get to the routine. -/
theorem ChangeRequest.Turn.failure {σ : Type} {r r' : ChangeRequest (StateM σ)} {e : ConfigError}
    {s t : σ} (h : Turn r s .commit (.error e) r' t) :
    r' = r ∧ (t = s ∨ (r.persist r.changes).run.run s = (.error e, t)) := by
  cases h with
  | closed _ _ => exact ⟨rfl, .inl rfl⟩
  | unnamed _ hempty => exact absurd hempty (RequestCall.not_namesEmpty rfl)
  | failed _ hpersist => exact ⟨rfl, .inr hpersist⟩

namespace FileProvider

open FileSystem

variable {p : FileProvider} {fs fs' fs₁ : FileSystem} {entries : KeyMap String} {kind : IoKind}
  {changes : ChangeSet} {e : ConfigError} {w w' : World} {result : Except IoKind Unit}

/-- What is read depends on where the path leads and on what stands at its place. -/
theorem read_congr (hlocate : fs'.locate p.path = fs.locate p.path)
    (hrefusal : fs'.refusal = fs.refusal)
    (hnode : fs'.node? (p.place fs) = fs.node? (p.place fs)) : p.read fs' = p.read fs := by
  have hinspect : fs'.inspect p.path = fs.inspect p.path := by
    unfold FileSystem.inspect permit
    rw [hlocate, hrefusal]
    cases hplace : fs.locate p.path with
    | error kind => rfl
    | ok place =>
        obtain rfl : place = p.place fs := locate_eq_ok hplace
        simp only [bind, Except.bind, hnode]
  have hread : fs'.read p.path = fs.read p.path := by
    unfold FileSystem.read permit
    rw [hlocate, hrefusal]
    cases hplace : fs.locate p.path with
    | error kind => rfl
    | ok place =>
        obtain rfl : place = p.place fs := locate_eq_ok hplace
        simp only [bind, Except.bind, hnode]
  unfold read
  rw [hinspect, hread]

theorem read_of_inspect_error (h : fs.inspect p.path = .error kind)
    (h' : fs'.inspect p.path = .error kind) : p.read fs' = p.read fs := by
  unfold read
  rw [h, h']
  cases kind <;> rfl

theorem Prepared.read_staged (h : p.Prepared fs fs₁) (part : Content) :
    p.read (fs₁.setNode (p.stagingPlace fs) (.file part)) = p.read fs₁ := by
  have hplace := (p.place_congr h.filled.home).1
  refine read_congr ?_ rfl ?_
  · by_cases hpath : p.path = ""
    · rw [hpath]
      rfl
    · obtain ⟨own, hown⟩ := locate_of_staging hpath h.located h.free
      rw [(extends_setNode h.free _).locate hown, hown]
  · rw [hplace, h.node?_setNode]

theorem read_made (horderly : fs.Orderly) (hstraight : fs.Straight p.path)
    (h : (makeParents p.path).run.run fs = (result, fs')) : p.read fs' = p.read fs := by
  rcases horderly.inspect_made hstraight h with rfl | ⟨kind, hinspect, hinspect'⟩
  · rfl
  · exact read_of_inspect_error hinspect hinspect'

theorem Writing.read_of_error (h : p.Writing entries fs (.error kind) fs') (horderly : fs.Orderly)
    (hstraight : fs.Straight p.path) : p.read fs' = p.read fs := by
  cases h with
  | stopped hmade => exact read_made horderly hstraight hmade
  | staged hprepared =>
      rw [hprepared.read_staged]
      exact read_made horderly hstraight hprepared.made

theorem Persisting.of_error (h : p.Persisting changes w (.error e) w') :
    w'.snapshots = w.snapshots ∧
      (∀ content, w'.files.node? (p.place w.files) = some (.file content) ↔
        w.files.node? (p.place w.files) = some (.file content)) ∧
      (w.files.Orderly → w.files.Straight p.path → p.read w'.files = p.read w.files) := by
  cases h with
  | unread _ => exact ⟨rfl, fun _ => Iff.rfl, fun _ _ => rfl⟩
  | unwritten _ hwriting =>
      refine ⟨rfl, ?_, hwriting.read_of_error⟩
      intro content
      rcases hwriting.node?_of_error with hsame | ⟨hnone, hdir⟩
      · dsimp only
        rw [hsame]
      · dsimp only
        rw [hnone, hdir]
        constructor
        · nofun
        · nofun

/-- A commit that fails, at whatever step, leaves the request with its changes and the file as it
was. A provider that keeps entries goes on to answer from them; and in a tree in order, whatever the
provider is asked and however often it is reloaded, it answers as without the attempt, if its path
does not go up again from where nothing stands. -/
theorem failed_commit {tag : Tag} {backend : String}
    {steps : List (Step (ChangeRequest Act) RequestCall World)} {r r' : ChangeRequest Act}
    (h : Run ChangeRequest.perform (.create tag backend p.persist) steps r)
    (hcommit : (r.perform .commit).run w = ((.error e, r'), w')) :
    r' = r ∧
      (∀ content, w'.files.node? (p.place w.files) = some (.file content) ↔
        w.files.node? (p.place w.files) = some (.file content)) ∧
      (∀ kept, w.snapshots p.tag = some kept → ∀ qs, .reload ∉ qs →
        outcome (p.askAll qs) w' = outcome (p.askAll qs) w) ∧
      (w.files.Orderly → w.files.Straight p.path → ∀ qs,
        outcome (p.askAll qs) w' = outcome (p.askAll qs) w) := by
  obtain ⟨rfl, rfl | hpersist⟩ := (ChangeRequest.turn_of_perform hcommit).failure
  · exact ⟨rfl, fun _ => Iff.rfl, fun _ _ _ _ => rfl, fun _ _ _ => rfl⟩
  rw [(ChangeRequest.sound_of_run h).persist_eq] at hpersist
  obtain ⟨hsnapshots, hfile, hread⟩ := (persisting_of_run hpersist).of_error
  refine ⟨rfl, hfile, ?_, ?_⟩
  · intro kept hkept qs hqs
    have hkept' : w'.snapshots p.tag = some kept := hsnapshots ▸ hkept
    rw [outcome_askAll, outcome_askAll, answersFrom_of_not_mem hqs, answersFrom_of_not_mem hqs,
      current_of_some hkept, current_of_some hkept']
  · intro horderly hstraight qs
    have hcurrent : p.current w' = p.current w := by
      unfold current World.kept
      rw [hsnapshots]
      dsimp only
      rw [hread horderly hstraight]
    rw [outcome_askAll, outcome_askAll, hcurrent, hread horderly hstraight]

end FileProvider

namespace Sample

open FileSystem FileProvider

def deepFile : FileProvider := ⟨0, "deep", "a/b.properties", 0, true, .flat⟩

/-- A world in which there is room for one character of the staging file. -/
def crowded : World :=
  { World.initial "/work" with
    files := { FileSystem.empty "/work" with
      refusal := fun op place =>
        if op = .write ∧ place = ["a", "b.properties.tmp"] then some .storageFull else none
      remnant := fun _ => some (.text "k") } }

theorem orderly_crowded : crowded.files.Orderly := by
  constructor
  · intro place name node h
    have hroot : place ++ [name] ≠ [] := by simp
    rw [node?, if_neg hroot] at h
    cases h
  · intro place name kind h
    cases h

theorem straight_deepFile : crowded.files.Straight deepFile.path := by
  intro front back hsteps _ _ name hmem
  have hnames : ∀ name ∈ crowded.files.stepsOf deepFile.path, name ≠ ".." := by decide
  exact hnames name (hsteps ▸ List.mem_append_right _ hmem)

/-- A directory and a piece of the staging file are left behind, and nobody can tell. -/
theorem crowded_commit_fails : ∃ e r' w',
    ((onePut deepFile "1").perform .commit).run crowded = ((.error e, r'), w') ∧
      w'.files.node? ["a"] = some .directory ∧
      w'.files.node? ["a", "b.properties.tmp"] = some (.file (.text "k")) ∧
      r' = onePut deepFile "1" ∧
      outcome (deepFile.askAll [.get "k", .reload, .properties]) w' =
        outcome (deepFile.askAll [.get "k", .reload, .properties]) crowded := by
  obtain ⟨steps, hrun⟩ := run_onePut deepFile "1"
  obtain ⟨e, r', w', hcommit, hmade, hstaged⟩ : ∃ e r' w',
      ((onePut deepFile "1").perform .commit).run crowded = ((.error e, r'), w') ∧
        w'.files.node? ["a"] = some .directory ∧
        w'.files.node? ["a", "b.properties.tmp"] = some (.file (.text "k")) :=
    ⟨_, _, _, rfl, rfl, rfl⟩
  obtain ⟨hsame, -, -, hanswers⟩ := failed_commit hrun hcommit
  exact ⟨e, r', w', hcommit, hmade, hstaged, hsame,
    hanswers orderly_crowded straight_deepFile _⟩

/-- A provider whose path goes up again out of a directory that is missing. -/
def climbing : FileProvider := ⟨0, "climbing", "a/../b.properties", 0, true, .flat⟩

/-- A world with the file, and a directory in the way of its staging file. -/
def blocked : World :=
  { World.initial "/work" with
    files := ((FileSystem.empty "/work").setNode ["b.properties"]
      (.file (.text (DocumentFormat.flat.render (KeyMap.empty.insert "k" "1"))))).setNode
        ["b.properties.tmp"] .directory }

/-- A commit that fails makes a directory, and so a file turns up that was not to be found. -/
theorem blocked_commit_shows : ∃ e r' w',
    ((onePut climbing "2").perform .commit).run blocked = ((.error e, r'), w') ∧
      outcome (climbing.askAll [.reload, .get "k"]) blocked = [.ok .done, .ok (.value none)] ∧
      outcome (climbing.askAll [.reload, .get "k"]) w' =
        [.ok .done, .ok (.value (some ⟨"k", some "1", "climbing", .empty⟩))] := by
  refine ⟨_, _, _, rfl, rfl, ?_⟩
  rw [outcome_askAll]
  have hparse : climbing.parse (DocumentFormat.flat.render (KeyMap.empty.insert "k" "1")) =
      .ok (KeyMap.empty.insert "k" "1") := climbing.parse_render rfl
  have hread : climbing.read
      (after (climbing.persist (onePut climbing "2").changes).run blocked).files =
        .ok (KeyMap.empty.insert "k" "1") := by
    rw [climbing.read_eq ⟨rfl, rfl⟩ rfl rfl, hparse, if_neg (by decide +kernel)]
  change climbing.answersFrom _ (climbing.read
    (after (climbing.persist (onePut climbing "2").changes).run blocked).files) _ = _
  rw [hread]
  rfl

end Sample

end LayeredConfig
