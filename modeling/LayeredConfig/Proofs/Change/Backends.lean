import LayeredConfig.Proofs.Change.Session
import LayeredConfig.Proofs.File.Commit
import LayeredConfig.Proofs.Provider.Opening

/-!
The library's own backends. A memory provider is a backend that can also be written to directly; a
file is one backend for all the providers that read it, whatever they have kept of it.
-/

namespace LayeredConfig

variable {ι σ ε α β γ : Type}

/-- An action leaves what `f` reads as it is. -/
def Leaves (f : σ → γ) (x : ExceptT ε (StateM σ) α) : Prop := ∀ s, f (after x.run s) = f s

namespace Leaves

variable {f : σ → γ}

theorem except (r : Except ε α) : Leaves f (r : ExceptT ε (StateM σ) α) := by
  intro s
  cases r with
  | error e => rfl
  | ok a => rfl

theorem eq_of_run {x : ExceptT ε (StateM σ) α} (hx : Leaves f x) {s t : σ} {result : Except ε α}
    (h : x.run.run s = (result, t)) : f t = f s := by
  have hafter : after x.run s = t := congrArg (·.2) h
  rw [← hafter]
  exact hx s

theorem bind {x : ExceptT ε (StateM σ) α} {g : α → ExceptT ε (StateM σ) β} (hx : Leaves f x)
    (hg : ∀ a, Leaves f (g a)) : Leaves f (x >>= g) := by
  intro s
  cases hrun : (x >>= g).run.run s with
  | mk result t =>
      have hafter : after (x >>= g).run s = t := congrArg (·.2) hrun
      rw [hafter]
      rcases run_bind_cases hrun with ⟨e, hrun, -⟩ | ⟨a, u, hrun, hnext⟩
      · exact hx.eq_of_run hrun
      · exact ((hg a).eq_of_run hnext).trans (hx.eq_of_run hrun)

theorem discard {x : ExceptT ε (StateM σ) α} (hx : Leaves f x) :
    Leaves f (x >>= fun _ => pure ()) := hx.bind fun _ => .except (.ok ())

end Leaves

/-- What can be asked of a memory provider, and what can be done to it directly. -/
inductive MemoryAccess
  | get (key : String)
  | properties
  | snapshot
  | set (key : String) (payload : Option String)
  | unset (key : String)

def MemoryAccess.updates : MemoryAccess → List (Update (Option String))
  | set key payload => [.set key payload]
  | unset key => [.unset key]
  | get _ | properties | snapshot => []

namespace MemoryProvider

variable {p : MemoryProvider} {w w' : World}

def perform (p : MemoryProvider) : MemoryAccess → ExceptT ConfigError Act Unit
  | .get key => do let _ ← p.toProvider.get key
  | .properties => do let _ ← p.toProvider.properties
  | .snapshot => do let _ ← p.snapshot
  | .set key payload => p.set key payload
  | .unset key => p.unset key

def asBackend (p : MemoryProvider) : Backend Unit MemoryAccess World (Option String) where
  payload := some
  content w := w.memory p.tag
  openRequest _ := p.openRequest
  access := p.perform
  updates := MemoryAccess.updates
  undisturbed w w' := w'.memory p.tag = w.memory p.tag

theorem leaves_get (f : World → γ) (p : MemoryProvider) (key : String) :
    Leaves f (p.toProvider.get key) := by
  have hcontent : Leaves f (p.content : ExceptT ConfigError Act _) := fun _ => rfl
  refine hcontent.bind ?_
  intro content
  cases content.get? key with
  | none => exact .except (.ok none)
  | some payload =>
      have hvalue : Leaves f
          (PropertyValue.create key payload p.name : ExceptT ConfigError Act _) := .except _
      exact hvalue.bind fun v => .except (.ok (some v))

theorem leaves_properties (f : World → γ) (p : MemoryProvider) :
    Leaves f p.toProvider.properties := by
  have hcontent : Leaves f (p.content : ExceptT ConfigError Act _) := fun _ => rfl
  exact hcontent.bind fun content => .except (valuesOf p.name .empty content.entries)

theorem takes_persist (p : MemoryProvider) : p.asBackend.Takes (fun _ => True) p.persist := by
  intro changes w result w' _ _ h
  cases h
  exact ⟨trivial, if_pos rfl⟩

theorem lawful (p : MemoryProvider) : p.asBackend.Lawful fun _ => True := by
  refine ⟨fun _ _ _ h => ⟨trivial, h⟩, ?_, ?_⟩
  · intro _ w result w' _ h
    obtain ⟨hresult, hafter⟩ := Prod.mk.inj h
    change outcome p.openRequest.run w = result at hresult
    change after p.openRequest.run w = w' at hafter
    have hmemory : w'.memory = w.memory := hafter ▸ p.memory_openRequest w
    refine ⟨trivial, congrFun hmemory p.tag, ?_⟩
    rintro r rfl
    obtain ⟨uri, -, rfl⟩ := eq_create_of_openRequest hresult
    exact ⟨rfl, rfl, p.takes_persist⟩
  · intro k w result w' _ h
    refine ⟨trivial, ?_⟩
    cases k with
    | get key =>
        have hsame := (p.leaves_get (·.memory p.tag) key).discard.eq_of_run h
        cases result with
        | error e => exact hsame
        | ok _ => exact hsame
    | properties =>
        have hsame := (p.leaves_properties (·.memory p.tag)).discard.eq_of_run h
        cases result with
        | error e => exact hsame
        | ok _ => exact hsame
    | snapshot =>
        cases h
        rfl
    | set key payload =>
        cases h
        exact if_pos rfl
    | unset key =>
        cases h
        exact if_pos rfl

end MemoryProvider

/-- What can be asked of the providers that read a file. -/
inductive FileAccess (ι : Type)
  | get (i : ι) (key : String)
  | properties (i : ι)
  | reload (i : ι)

namespace FileProvider

def perform (providers : ι → FileProvider) : FileAccess ι → ExceptT ConfigError Act Unit
  | .get i key => do let _ ← (providers i).toProvider.get key
  | .properties i => do let _ ← (providers i).toProvider.properties
  | .reload i => (providers i).reload

/-- The paths of some providers share the file at a place. -/
def Share (providers : ι → FileProvider) (place : Place) (w : World) : Prop :=
  w.files.Shared (fun i => (providers i).path) place

/-- A missing file is shared by paths that denote its place, if they are all equal or none of them
goes up. -/
theorem share_of_missing {providers : ι → FileProvider} {place : Place} {w : World}
    (hdenoted : ∀ i, FileSystem.placeOf w.files.home (providers i).path = place)
    (hinspected : ∀ q, w.files.refusal .inspect q ≠ some .notFound)
    (hmissing : w.files.node? place = none)
    (h : (∃ path, ∀ i, (providers i).path = path) ∨
      ∀ i, ∀ name ∈ w.files.stepsOf (providers i).path, name ≠ "..") :
    Share providers place w := by
  refine FileSystem.shared_of_missing_or_readable hdenoted hinspected (.inl ⟨hmissing, ?_⟩)
  rcases h with ⟨path, heq⟩ | hlevel
  · exact FileSystem.together_of_eq heq
  · exact FileSystem.together_of_level_or_located hdenoted fun i => .inl (hlevel i)

/-- A file as a backend of all the providers that read it. It is undisturbed when it stands as it
stood and the same paths lead to it. -/
def asBackend (providers : ι → FileProvider) (format : DocumentFormat) (place : Place) :
    Backend ι (FileAccess ι) World String where
  payload := id
  content w := format.contentAt place w.files
  openRequest i := (providers i).openRequest
  access := perform providers
  updates _ := []
  undisturbed w w' := w'.files.node? place = w.files.node? place ∧ Share providers place w'

theorem leaves_entries (p : FileProvider) : Leaves (·.files) p.entries := by
  intro w
  have hrun := p.entries_run w
  rw [after, hrun]
  cases w.snapshots p.tag with
  | some entries => rfl
  | none =>
      cases p.read w.files with
      | error e => rfl
      | ok entries => rfl

theorem leaves_get (p : FileProvider) (key : String) : Leaves (·.files) (p.toProvider.get key) := by
  refine p.leaves_entries.bind ?_
  intro entries
  cases entries.get? key with
  | none => exact .except (.ok none)
  | some value =>
      have hvalue : Leaves (·.files)
          (PropertyValue.of key value p.name : ExceptT ConfigError Act _) := .except _
      exact hvalue.bind fun v => .except (.ok (some v))

theorem leaves_properties (p : FileProvider) : Leaves (·.files) p.toProvider.properties :=
  p.leaves_entries.bind fun entries => .except (PropertyValue.mapOf entries.entries p.name)

theorem leaves_perform (providers : ι → FileProvider) (k : FileAccess ι) :
    Leaves (·.files) (perform providers k) := by
  cases k with
  | get i key => exact ((providers i).leaves_get key).discard
  | properties i => exact (providers i).leaves_properties.discard
  | reload i => exact fun _ => rfl

theorem openRequest_run (p : FileProvider) (w : World) :
    p.openRequest.run.run w =
      if p.writable then
        (.ok (.create w.nextTag (w.files.address p.path) p.persist),
          { w with nextTag := w.nextTag + 1 })
      else (.error (.argument (.readOnly p.name)), w) := by
  rw [openRequest]
  cases p.writable with
  | false => rfl
  | true => rfl

variable {providers : ι → FileProvider} {format : DocumentFormat} {place : Place}

theorem takes_persist (hformat : ∀ i, (providers i).format = format) (i : ι) :
    (asBackend providers format place).Takes (Share providers place) (providers i).persist := by
  intro changes w result w' hproper hshare h
  obtain ⟨hshare', hcontent⟩ := persist_content (i := i) hshare rfl hproper h
  rw [hformat] at hcontent
  exact ⟨hshare', hcontent⟩

theorem kept_of_files {w w' : World} (hfiles : w'.files = w.files) (h : Share providers place w) :
    Share providers place w' ∧ (asBackend providers format place).content w' =
      (asBackend providers format place).content w := by
  refine ⟨?_, ?_⟩
  · rw [Share, hfiles]
    exact h
  · change format.contentAt place w'.files = format.contentAt place w.files
    rw [hfiles]

theorem lawful (hformat : ∀ i, (providers i).format = format) :
    (asBackend providers format place).Lawful (Share providers place) := by
  refine ⟨?_, ?_, ?_⟩
  · rintro w w' - ⟨hnode, hshare⟩
    refine ⟨hshare, ?_⟩
    change format.contentAt place w'.files = format.contentAt place w.files
    rw [DocumentFormat.contentAt, hnode, DocumentFormat.contentAt]
  · intro i w result w' hshare h
    rw [asBackend, openRequest_run] at h
    have hfiles : w'.files = w.files := by
      split at h
      · cases h
        rfl
      · cases h
        rfl
    obtain ⟨hshare', hcontent⟩ := kept_of_files hfiles hshare
    refine ⟨hshare', hcontent, ?_⟩
    rintro r rfl
    split at h
    · cases h
      exact ⟨rfl, rfl, takes_persist hformat i⟩
    · cases h
  · intro k w result w' hshare h
    obtain ⟨hshare', hcontent⟩ := kept_of_files ((leaves_perform providers k).eq_of_run h) hshare
    refine ⟨hshare', ?_⟩
    cases result with
    | error e => exact hcontent
    | ok _ => exact hcontent

end FileProvider

/-- Whatever happens on a memory provider, or on a file that the paths of its providers share and that
nothing else changes, in whatever order: its content is at all times what it was at first with the
changes of the committed requests, and what was set and unset directly, in the order in which it
happened. Requests that are open, cancelled or failed at their commits contribute nothing, and no
request contributes twice. -/
theorem backends_replay :
    (∀ p : MemoryProvider, p.asBackend.Replays fun _ => True) ∧
    ∀ (ι : Type) (providers : ι → FileProvider) (format : DocumentFormat) (place : Place),
      (∀ i, (providers i).format = format) →
        (FileProvider.asBackend providers format place).Replays
          (FileProvider.Share providers place) := by
  refine ⟨?_, ?_⟩
  · intro p
    exact p.lawful.replays
  · intro ι providers format place hformat
    exact (FileProvider.lawful hformat).replays

namespace Sample

/-- Two providers that read one file, by two paths. -/
def readers : Bool → FileProvider
  | false => ⟨0, "plain", "a.properties", 0, true, .flat⟩
  | true => ⟨1, "dotted", "./a.properties", 0, true, .flat⟩

theorem share_readers :
    FileProvider.Share readers ["a.properties"] (World.initial "/work") := by
  refine FileProvider.share_of_missing ?_ nofun rfl (.inr ?_)
  · intro i
    cases i with
    | false => rfl
    | true => rfl
  · decide

/-- Two requests on a file, of which the one that is opened first is committed last. -/
def crossing : List (SessionCall Bool (FileAccess Bool)) :=
  [.openRequest false, .openRequest true, .request 0 (.put "a" "1"),
    .request 1 (.putAll [("a", "0"), ("b", "2")]), .access (.get false "a"), .request 1 .commit,
    .request 1 .commit, .access (.reload true), .request 0 .commit]

def aside : MemoryProvider := ⟨2, "aside", 0, true, true, none⟩

/-- A request on a memory provider, and what is set and unset beside it. -/
def interrupted : List (SessionCall Unit MemoryAccess) :=
  [.access (.set "a" (some "0")), .openRequest (), .request 0 (.put "b" "2"), .openRequest (),
    .request 1 (.put "d" "4"), .access (.unset "a"), .request 1 .cancel, .access (.set "c" none),
    .request 0 .commit]

/-- No update is lost or made twice when requests cross one another or direct changes. -/
theorem crossing_replays :
    (let b := FileProvider.asBackend readers .flat ["a.properties"]
     let run := performAll b.perform [] (World.initial "/work") crossing
     (b.content run.2.2).entries = [("a", "1"), ("b", "2")]) ∧
    (let run := performAll aside.asBackend.perform [] (World.initial "/work") interrupted
     (aside.asBackend.content run.2.2).entries = [("b", some "2"), ("c", none)]) := by
  refine ⟨?_, ?_⟩
  · intro b run
    have hsession := b.session_performAll (World.initial "/work") crossing
    have hformat : ∀ i, (readers i).format = .flat := by
      intro i
      cases i with
      | false => rfl
      | true => rfl
    obtain ⟨hcontent, -⟩ := backends_replay.2 Bool readers .flat ["a.properties"]
      hformat _ share_readers _ _ _ hsession
    rw [hcontent]
    decide +kernel
  · intro run
    have hsession := aside.asBackend.session_performAll (World.initial "/work") interrupted
    obtain ⟨hcontent, -⟩ := backends_replay.1 aside _ trivial _ _ _ hsession
    rw [hcontent]
    decide +kernel

/-- Two providers of one file, by a plain path and by one that goes up from a missing directory. -/
def climbers : Bool → FileProvider
  | false => ⟨0, "plain", "a.properties", 0, true, .flat⟩
  | true => ⟨1, "climbing", "sub/../a.properties", 0, true, .flat⟩

def lossyCalls : List (SessionCall Bool (FileAccess Bool)) :=
  [.openRequest false, .openRequest true, .request 0 (.put "k" "1"), .request 0 .commit,
    .request 1 (.put "x" "2"), .request 1 .commit]

/-- The path that goes up overlooks the file that the first commit has made, so the second one
replaces it without what the first one had put there. -/
theorem climbing_loses :
    let b := FileProvider.asBackend climbers .flat ["a.properties"]
    let run := performAll b.perform [] (World.initial "/work") lossyCalls
    (∀ i, FileSystem.placeOf "/work" (climbers i).path = ["a.properties"]) ∧
      (World.initial "/work").files.node? ["a.properties"] = none ∧
      run.1.all (·.succeeds) = true ∧ (b.content run.2.2).entries = [("x", "2")] ∧
      (b.replay run.1 (b.content (World.initial "/work"))).entries = [("k", "1"), ("x", "2")] := by
  intro b run
  refine ⟨?_, rfl, by decide +kernel, by decide +kernel, by decide +kernel⟩
  intro i
  cases i with
  | false => rfl
  | true => rfl

end Sample

end LayeredConfig
