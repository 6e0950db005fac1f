import LayeredConfig.Proofs.File.Attempt

/-!
What a commit does to other files. It takes the place of the staging file without a look at what
stands there: a file that does is gone after a commit that succeeds. All other files are spared.
-/

namespace LayeredConfig

namespace FileSystem

/-- Two lists of names stand for one place. -/
def SamePlace (place q : Place) : Prop := placeText place = placeText q ∧ (place = [] ↔ q = [])

/-- The files at other than the touched places are still there, as they were. -/
def Spares (touched : List Place) (fs fs' : FileSystem) : Prop :=
  ∀ q content, (∀ place ∈ touched, ¬ SamePlace place q) → fs.node? q = some (.file content) →
    fs'.node? q = some (.file content)

variable {touched touched' : List Place} {place q : Place} {fs fs' fs'' : FileSystem}

theorem SamePlace.node? (h : SamePlace place q) (fs : FileSystem) : fs.node? place = fs.node? q := by
  by_cases hroot : place = []
  · rw [hroot, h.2.1 hroot]
  · exact node?_congr fs hroot (fun hq => hroot (h.2.2 hq)) h.1

theorem text_ne_of_not_samePlace (h : ¬ SamePlace place q) (hplace : place ≠ []) (hq : q ≠ []) :
    placeText place ≠ placeText q := by
  intro htext
  exact h ⟨htext, ⟨fun hroot => absurd hroot hplace, fun hroot => absurd hroot hq⟩⟩

namespace Spares

theorem refl (touched : List Place) (fs : FileSystem) : Spares touched fs fs := fun _ _ _ h => h

theorem trans (h : Spares touched fs fs') (h' : Spares touched fs' fs'') :
    Spares touched fs fs'' := by
  intro q content hq hnode
  exact h' q content hq (h q content hq hnode)

theorem narrow (h : Spares touched fs fs') (hsub : ∀ place ∈ touched, place ∈ touched' ∨
    ∀ content, fs.node? place ≠ some (.file content)) : Spares touched' fs fs' := by
  intro q content hq hnode
  refine h q content ?_ hnode
  intro place hmem hsame
  rcases hsub place hmem with htouched | hfile
  · exact hq place htouched hsame
  · exact hfile content ((hsame.node? fs).trans hnode)

theorem mono (h : Spares touched fs fs') (hsub : touched ⊆ touched') : Spares touched' fs fs' :=
  h.narrow fun _ hmem => .inl (hsub hmem)

end Spares

theorem spares_of_filled (h : Filled fs fs') (touched : List Place) : Spares touched fs fs' := by
  intro q content _ hnode
  rcases h.node q with hsame | ⟨hnone, -⟩
  · exact hsame.trans hnode
  · rw [hnode] at hnone
    cases hnone

theorem spares_setNode (hplace : place ≠ []) (node : Node) :
    Spares [place] fs (fs.setNode place node) := by
  intro q content hq hnode
  have hroot : q ≠ [] := ne_nil_of_node? (by rw [hnode]; nofun)
  have htext := text_ne_of_not_samePlace (hq place List.mem_cons_self) hplace hroot
  rw [node?_setNode _ _ _ hroot, if_neg htext]
  exact hnode

theorem spares_eraseNode (hplace : place ≠ []) : Spares [place] fs (fs.eraseNode place) := by
  intro q content hq hnode
  have hroot : q ≠ [] := ne_nil_of_node? (by rw [hnode]; nofun)
  have htext := text_ne_of_not_samePlace (hq place List.mem_cons_self) hplace hroot
  rw [node?_eraseNode _ _ hroot, if_neg htext]
  exact hnode

end FileSystem

namespace FileProvider

open FileSystem

variable {p : FileProvider} {entries : KeyMap String} {fs fs' : FileSystem} {changes : ChangeSet}
  {w w' : World}

/-- The places at which a write may change a file. -/
def touched (p : FileProvider) (fs : FileSystem) : List Place := [p.place fs, p.stagingPlace fs]

theorem Writing.spares {result : Except IoKind Unit} (h : p.Writing entries fs result fs') :
    Spares (p.touched fs) fs fs' := by
  have hown : [p.place fs] ⊆ p.touched fs := by simp [touched]
  have hstaging : [p.stagingPlace fs] ⊆ p.touched fs := by simp [touched]
  cases h with
  | stopped hmade => exact spares_of_filled (filled_makeParents hmade) _
  | staged hprepared =>
      exact (spares_of_filled hprepared.filled _).trans
        ((spares_setNode hprepared.stagingPlace_ne_nil _).mono hstaging)
  | moved hprepared hdir _ _ hmoved _ =>
      rw [hmoved]
      exact ((spares_of_filled hprepared.filled _).trans
        ((spares_eraseNode hprepared.stagingPlace_ne_nil).mono hstaging)).trans
          ((spares_setNode (ne_nil_of_node? hdir) _).mono hown)

/-- A file at the place of the staging file is gone after a write that succeeds. -/
theorem Writing.not_spares {content : Content} (h : p.Writing entries fs (.ok ()) fs')
    (hfile : fs.node? (p.stagingPlace fs) = some (.file content)) :
    ¬ Spares [p.place fs] fs fs' := by
  intro hspares
  obtain ⟨-, hgone⟩ := h.node?_of_ok
  cases h with
  | moved hprepared hdir _ _ _ _ =>
      have hapart := hprepared.apart (ne_nil_of_node? hdir)
      have hkept := hspares (p.stagingPlace fs) content ?_ hfile
      · rw [hgone] at hkept
        cases hkept
      · intro place hmem hsame
        obtain rfl := List.mem_singleton.1 hmem
        exact hapart hsame.1.symm

theorem Persisting.spares {result : Except ConfigError Unit}
    (h : p.Persisting changes w result w') : Spares (p.touched w.files) w.files w'.files := by
  cases h with
  | unread _ => exact .refl _ _
  | unwritten _ hwriting => exact hwriting.spares
  | written _ hwriting => exact hwriting.spares

theorem Persisting.not_spares {content : Content} (h : p.Persisting changes w (.ok ()) w')
    (hfile : w.files.node? (p.stagingPlace w.files) = some (.file content)) :
    ¬ Spares [p.place w.files] w.files w'.files := by
  cases h with
  | written _ hwriting => exact hwriting.not_spares hfile

/-- What a commit does to the files of others, whether it succeeds or fails. It spares all but the
one at the place of its staging file; and a commit that succeeds spares that one too if and only if
there is none. -/
theorem commit_spares {tag : Tag} {backend : String}
    {steps : List (Step (ChangeRequest Act) RequestCall World)} {r r' : ChangeRequest Act}
    {result : Except ConfigError Unit}
    (h : Run ChangeRequest.perform (.create tag backend p.persist) steps r)
    (hcommit : (r.perform .commit).run w = ((result, r'), w')) :
    Spares (p.touched w.files) w.files w'.files ∧
      ((∀ content, w.files.node? (p.stagingPlace w.files) ≠ some (.file content)) →
        Spares [p.place w.files] w.files w'.files) ∧
      (result = .ok () → (Spares [p.place w.files] w.files w'.files ↔
        ∀ content, w.files.node? (p.stagingPlace w.files) ≠ some (.file content))) := by
  have hpersist := (ChangeRequest.sound_of_run h).persist_eq
  have hspares : Spares (p.touched w.files) w.files w'.files := by
    cases result with
    | ok _ =>
        have hroutine := (ChangeRequest.turn_of_perform hcommit).routine.2
        rw [hpersist] at hroutine
        exact (persisting_of_run hroutine).spares
    | error e =>
        rcases (ChangeRequest.turn_of_perform hcommit).failure.2 with rfl | hroutine
        · exact .refl _ _
        · rw [hpersist] at hroutine
          exact (persisting_of_run hroutine).spares
  have hnone : (∀ content, w.files.node? (p.stagingPlace w.files) ≠ some (.file content)) →
      Spares [p.place w.files] w.files w'.files := by
    intro hfile
    refine hspares.narrow ?_
    intro place hmem
    rcases List.mem_cons.1 hmem with rfl | hmem
    · exact .inl List.mem_cons_self
    · obtain rfl := List.mem_singleton.1 hmem
      exact .inr hfile
  refine ⟨hspares, hnone, ?_⟩
  rintro rfl
  refine ⟨?_, hnone⟩
  intro honly content hfile
  have hroutine := (ChangeRequest.turn_of_perform hcommit).routine.2
  rw [hpersist] at hroutine
  exact (persisting_of_run hroutine).not_spares hfile honly

end FileProvider

namespace Sample

open FileSystem FileProvider

def single (name : String) : World :=
  { World.initial "/work" with
    files := (FileSystem.empty "/work").setNode [name] (.file (.text "k=1\n")) }

theorem neighbour_kept : ∃ r' w',
    ((onePut settingsFile "2").perform .commit).run (single "b.properties") = ((.ok (), r'), w') ∧
      w'.files.node? ["b.properties"] = some (.file (.text "k=1\n")) := by
  obtain ⟨steps, hrun⟩ := run_onePut settingsFile "2"
  obtain ⟨r', w', hcommit⟩ : ∃ r' w', ((onePut settingsFile "2").perform .commit).run
      (single "b.properties") = ((.ok (), r'), w') := ⟨_, _, rfl⟩
  obtain ⟨-, hspares, -⟩ := commit_spares hrun hcommit
  refine ⟨r', w', hcommit, hspares nofun ["b.properties"] _ ?_ rfl⟩
  intro place hmem hsame
  obtain rfl := List.mem_singleton.1 hmem
  exact absurd hsame.1 (by decide)

/-- A file that has the name of the staging file is gone. -/
theorem staging_name_gone : ∃ r' w',
    ((onePut settingsFile "2").perform .commit).run (single "a.properties.tmp") =
        ((.ok (), r'), w') ∧
      (single "a.properties.tmp").files.node? ["a.properties.tmp"] =
        some (.file (.text "k=1\n")) ∧
      w'.files.node? ["a.properties.tmp"] = none :=
  ⟨_, _, rfl, rfl, rfl⟩

end Sample

end LayeredConfig
