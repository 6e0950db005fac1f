import LayeredConfig.Proofs.File.Place
import LayeredConfig.Provider.File

/-!
Writing by way of a staging file. `Writing` says everything that a write can do to the tree: what it
does at the place of the file, at that of the staging file and at all other ones follows from it.
-/

namespace LayeredConfig

namespace FileSystem

theorem eraseNode_setNode (fs : FileSystem) (place : Place) (node : Node) :
    (fs.setNode place node).eraseNode place = fs.eraseNode place := by
  have hnodes : (fs.nodes.insert (placeText place) node).erase (placeText place) =
      fs.nodes.erase (placeText place) := by
    apply KeyMap.ext_get?
    intro key
    rw [KeyMap.get?_erase, KeyMap.get?_erase, KeyMap.get?_insert]
    split
    · rfl
    · rfl
  rw [eraseNode, setNode, eraseNode]
  dsimp only
  rw [hnodes]

end FileSystem

namespace FileProvider

open FileSystem

def place (p : FileProvider) (fs : FileSystem) : Place := placeOf fs.home p.path

def stagingPlace (p : FileProvider) (fs : FileSystem) : Place := placeOf fs.home p.stagingPath

theorem place_congr (p : FileProvider) {fs fs' : FileSystem} (h : fs'.home = fs.home) :
    p.place fs' = p.place fs ∧ p.stagingPlace fs' = p.stagingPlace fs := by
  rw [place, stagingPlace, h]
  exact ⟨rfl, rfl⟩

/-- The directories on the way are made, and no directory stands at the place of the staging
file. -/
structure Prepared (p : FileProvider) (fs fs₁ : FileSystem) : Prop where
  made : (makeParents p.path).run.run fs = (.ok (), fs₁)
  located : fs₁.locate p.stagingPath = .ok (p.stagingPlace fs)
  free : fs₁.node? (p.stagingPlace fs) ≠ some .directory

/-- Everything that writing can do to the tree. It ends before anything is staged, with something
staged, or with the whole document at the place of the file. -/
inductive Writing (p : FileProvider) (entries : KeyMap String) (fs : FileSystem) :
    Except IoKind Unit → FileSystem → Prop
  | stopped {kind made fs₁} : (makeParents p.path).run.run fs = (made, fs₁) →
      Writing p entries fs (.error kind) fs₁
  | staged {kind part fs₁} : p.Prepared fs fs₁ →
      Writing p entries fs (.error kind) (fs₁.setNode (p.stagingPlace fs) (.file part))
  | moved {fs₁ fs₂} : p.Prepared fs fs₁ → fs₁.node? (p.place fs) ≠ some .directory →
      fs.refusal .write (p.stagingPlace fs) = none → fs.refusal .rename (p.place fs) = none →
      fs₂ = (fs₁.eraseNode (p.stagingPlace fs)).setNode (p.place fs)
        (.file (.text (p.format.render entries))) →
      fs₂.locate p.path = .ok (p.place fs) → Writing p entries fs (.ok ()) fs₂

variable {p : FileProvider} {entries : KeyMap String} {fs fs₁ fs' : FileSystem}
  {result : Except IoKind Unit}

theorem Prepared.filled (h : p.Prepared fs fs₁) : Filled fs fs₁ := filled_makeParents h.made

theorem Prepared.stagingPlace_ne_nil (h : p.Prepared fs fs₁) : p.stagingPlace fs ≠ [] :=
  ne_nil_of_node? h.free

theorem Prepared.apart (h : p.Prepared fs fs₁) (hplace : p.place fs ≠ []) :
    placeText (p.stagingPlace fs) ≠ placeText (p.place fs) :=
  placeText_staging_ne hplace h.stagingPlace_ne_nil

theorem Prepared.node?_setNode (h : p.Prepared fs fs₁) (node : Node) :
    (fs₁.setNode (p.stagingPlace fs) node).node? (p.place fs) = fs₁.node? (p.place fs) := by
  by_cases hroot : p.place fs = []
  · rw [hroot]
    rfl
  · rw [FileSystem.node?_setNode _ _ _ hroot, if_neg (h.apart hroot)]

theorem Prepared.extends_moved (h : p.Prepared fs fs₁)
    (hdir : fs₁.node? (p.place fs) ≠ some .directory) (node : Node) :
    Extends fs₁ ((fs₁.eraseNode (p.stagingPlace fs)).setNode (p.place fs) node) := by
  have herased : (fs₁.eraseNode (p.stagingPlace fs)).node? (p.place fs) ≠ some .directory := by
    have hroot := ne_nil_of_node? hdir
    rw [node?_eraseNode _ _ hroot, if_neg (h.apart hroot)]
    exact hdir
  exact (extends_eraseNode h.free).trans (extends_setNode herased node)

theorem Prepared.rename_run (h : p.Prepared fs fs₁) {content : Content}
    (hrun : (rename p.stagingPath p.path).run.run
      (fs₁.setNode (p.stagingPlace fs) (.file content)) = (result, fs')) :
    (∃ e, result = .error e) ∧ fs' = fs₁.setNode (p.stagingPlace fs) (.file content) ∨
      result = .ok () ∧ fs₁.node? (p.place fs) ≠ some .directory ∧
        fs.refusal .rename (p.place fs) = none ∧
        fs' = (fs₁.eraseNode (p.stagingPlace fs)).setNode (p.place fs) (.file content) ∧
        fs'.locate p.path = .ok (p.place fs) := by
  have hstaged : Extends fs₁ (fs₁.setNode (p.stagingPlace fs) (.file content)) :=
    extends_setNode h.free _
  rcases FileSystem.rename_run hrun with ⟨he, rfl⟩ | ⟨rfl, old, new, node, hmove⟩
  · exact .inl ⟨he, rfl⟩
  obtain ⟨hold, hnew, hnode, hdir, hpermit, rfl⟩ := hmove
  obtain rfl : p.stagingPlace fs = old :=
    Except.ok.inj ((hstaged.locate h.located).symm.trans hold)
  obtain rfl : new = p.place fs := by
    rw [locate_eq_ok hnew, place, ← h.filled.home]
    rfl
  obtain rfl : node = .file content := by
    rw [FileSystem.node?_setNode _ _ _ h.stagingPlace_ne_nil, if_pos rfl] at hnode
    exact (Option.some.inj hnode).symm
  rw [h.node?_setNode] at hdir
  have hpermit' : fs.refusal .rename (p.place fs) = none := h.filled.refusal ▸ hpermit
  refine .inr ⟨rfl, hdir, hpermit', by rw [eraseNode_setNode], ?_⟩
  have hdir' : ((fs₁.setNode (p.stagingPlace fs) (.file content)).eraseNode
      (p.stagingPlace fs)).node? (p.place fs) ≠ some .directory := by
    have hroot := ne_nil_of_node? hdir
    rw [eraseNode_setNode, node?_eraseNode _ _ hroot, if_neg (h.apart hroot)]
    exact hdir
  refine Extends.locate ?_ hnew
  refine (extends_eraseNode ?_).trans (extends_setNode hdir' _)
  rw [hnode]
  nofun

theorem writing_of_run (h : (p.write entries).run.run fs = (result, fs')) :
    p.Writing entries fs result fs' := by
  rw [write] at h
  rcases run_bind_cases h with ⟨e, hmade, rfl⟩ | ⟨_, fs₁, hmade, h⟩
  · exact .stopped hmade
  have hfilled : Filled fs fs₁ := filled_makeParents hmade
  have hstaging : ∀ {old}, fs₁.locate p.stagingPath = .ok old → old = p.stagingPlace fs := by
    intro old hold
    rw [locate_eq_ok hold, stagingPlace, hfilled.home]
  rcases run_bind_cases h with ⟨e, hwrite, rfl⟩ | ⟨_, fs₂, hwrite, h⟩
  · rcases write_run hwrite with ⟨-, rfl⟩ | ⟨old, part, hold, hfree, rfl, -⟩
    · exact .stopped hmade
    · obtain rfl := hstaging hold
      exact .staged ⟨hmade, hold, hfree⟩
  rcases write_run hwrite with ⟨⟨e, he⟩, -⟩ | ⟨old, part, hold, hfree, rfl, hdone⟩
  · cases he
  rcases hdone with ⟨e, he⟩ | ⟨-, rfl, hpermit⟩
  · cases he
  obtain rfl := hstaging hold
  have hprepared : p.Prepared fs fs₁ := ⟨hmade, hold, hfree⟩
  rw [hfilled.refusal] at hpermit
  rcases hprepared.rename_run h with ⟨⟨e, rfl⟩, rfl⟩ | ⟨rfl, hdir, hpermit', hmoved, hlocate⟩
  · exact .staged hprepared
  · exact .moved hprepared hdir hpermit hpermit' hmoved hlocate

theorem Writing.refusal (h : p.Writing entries fs result fs') : fs'.refusal = fs.refusal := by
  cases h with
  | stopped hmade => exact (filled_makeParents hmade).refusal
  | staged hprepared => exact hprepared.filled.refusal
  | moved hprepared _ _ _ hmoved _ =>
      rw [hmoved]
      exact hprepared.filled.refusal

theorem Writing.extends (h : p.Writing entries fs result fs') : Extends fs fs' := by
  cases h with
  | stopped hmade => exact (filled_makeParents hmade).extends
  | staged hprepared => exact hprepared.filled.extends.trans (extends_setNode hprepared.free _)
  | moved hprepared hdir _ _ hmoved _ =>
      rw [hmoved]
      exact hprepared.filled.extends.trans (hprepared.extends_moved hdir _)

theorem Writing.node?_of_error {kind : IoKind} (h : p.Writing entries fs (.error kind) fs') :
    fs'.node? (p.place fs) = fs.node? (p.place fs) ∨
      fs.node? (p.place fs) = none ∧ fs'.node? (p.place fs) = some .directory := by
  cases h with
  | stopped hmade => exact (filled_makeParents hmade).node _
  | staged hprepared =>
      rw [hprepared.node?_setNode]
      exact hprepared.filled.node _

/-- A write that succeeds has put the whole document at the place of the file, and nothing is left
of the staging file. -/
theorem Writing.node?_of_ok (h : p.Writing entries fs (.ok ()) fs') :
    fs'.node? (p.place fs) = some (.file (.text (p.format.render entries))) ∧
      fs'.node? (p.stagingPlace fs) = none := by
  cases h with
  | moved hprepared hdir _ _ hmoved _ =>
      have hroot := ne_nil_of_node? hdir
      have hne := hprepared.stagingPlace_ne_nil
      refine ⟨?_, ?_⟩
      · rw [hmoved, FileSystem.node?_setNode _ _ _ hroot, if_pos rfl]
      · rw [hmoved, FileSystem.node?_setNode _ _ _ hne, if_neg (Ne.symm (hprepared.apart hroot)),
          node?_eraseNode _ _ hne, if_pos rfl]

theorem Writing.locate_of_ok (h : p.Writing entries fs (.ok ()) fs') :
    fs'.locate p.path = .ok (p.place fs) := by
  cases h with
  | moved _ _ _ _ _ hlocate => exact hlocate

end FileProvider

end LayeredConfig
