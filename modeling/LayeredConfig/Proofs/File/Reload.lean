import LayeredConfig.Proofs.File.Commit
import LayeredConfig.Proofs.File.Inquiry
import LayeredConfig.Proofs.File.Way
import Mathlib.Data.String.Basic

/-!
What a commit leaves to be read. The provider answers from what it has written, but reads it again
only if the document is not too large; there is no limit for what it writes.
-/

namespace LayeredConfig

namespace FileSystem

/-- Nothing keeps a file at a place from being looked at and read. -/
structure Legible (fs : FileSystem) (place : Place) : Prop where
  inspected : fs.refusal .inspect place = none
  readable : fs.refusal .read place = none

variable {fs : FileSystem} {path source target : String} {place old new : Place}

theorem run_write (hlocate : fs.locate path = .ok place) (hdir : fs.node? place ≠ some .directory)
    (hpermit : fs.refusal .write place = none) (content : Content) :
    (write path content).run.run fs = (.ok (), fs.setNode place (.file content)) := by
  have hget : (get : FileAction FileSystem).run.run fs = (.ok fs, fs) := rfl
  have hplace : (liftM (fs.locate path) : FileAction Place).run.run fs = (.ok place, fs) := by
    rw [hlocate]
    rfl
  rw [write, run_bind_of_ok hget, run_bind_of_ok hplace, if_neg hdir, hpermit]
  rfl

theorem run_rename {node : Node} (hold : fs.locate source = .ok old)
    (hnew : fs.locate target = .ok new) (hnode : fs.node? old = some node)
    (hdir : fs.node? new ≠ some .directory) (hpermit : fs.refusal .rename new = none) :
    (rename source target).run.run fs = (.ok (), (fs.eraseNode old).setNode new node) := by
  have hget : (get : FileAction FileSystem).run.run fs = (.ok fs, fs) := rfl
  have hplace : (liftM (fs.locate source) : FileAction Place).run.run fs = (.ok old, fs) := by
    rw [hold]
    rfl
  have hplace' : (liftM (fs.locate target) : FileAction Place).run.run fs = (.ok new, fs) := by
    rw [hnew]
    rfl
  rw [rename, run_bind_of_ok hget, run_bind_of_ok hplace, run_bind_of_ok hplace', hnode]
  dsimp only
  rw [if_neg hdir, permit_eq_ok_iff.2 hpermit]
  rfl

end FileSystem

namespace FileProvider

open FileSystem

/-- The failure to read a file of more bytes than a provider reads. -/
def oversize (p : FileProvider) (size : Nat) : ConfigError :=
  .source p.name s!"Property file too large: {size} bytes (max {sizeLimit} bytes)" none

variable {p : FileProvider} {fs fs' : FileSystem} {entries : KeyMap String} {w w' : World}

theorem read_eq (p : FileProvider) {text : String} (hlegible : fs.Legible (p.place fs))
    (hlocate : fs.locate p.path = .ok (p.place fs))
    (hnode : fs.node? (p.place fs) = some (.file (.text text))) :
    p.read fs = if sizeLimit < text.utf8ByteSize then .error (p.oversize text.utf8ByteSize)
      else p.parse text := by
  rw [read, inspect_of_locate hlocate hlegible.inspected,
    read_of_locate hlocate hlegible.readable, hnode]
  rfl

theorem parse_render (p : FileProvider) (h : entries.get? "" = none) :
    p.parse (p.format.render entries) = .ok entries := by
  rw [parse, DocumentFormat.parse_render]
  dsimp only
  rw [KeyMap.erase_eq_self h]

theorem not_mem_of_read (h : p.read fs = .ok entries) : entries.get? "" = none := by
  rw [read] at h
  split at h
  · cases h
    rfl
  · cases h
  · split at h
    · cases h
    · split at h
      · cases h
      · rw [parse_eq_ok h, DocumentFormat.entriesOf]
        split
        · rw [KeyMap.get?_erase, if_pos rfl]
        · rfl

theorem Writing.read (h : p.Writing entries fs (.ok ()) fs') (hlegible : fs.Legible (p.place fs))
    (hempty : entries.get? "" = none) :
    p.read fs' = if sizeLimit < (p.format.render entries).utf8ByteSize then
        .error (p.oversize (p.format.render entries).utf8ByteSize)
      else .ok entries := by
  have hplace := (p.place_congr h.extends.home).1
  have hlegible' : fs'.Legible (p.place fs') := by
    rw [hplace]
    exact ⟨h.refusal ▸ hlegible.inspected, h.refusal ▸ hlegible.readable⟩
  rw [p.read_eq hlegible' (hplace ▸ h.locate_of_ok) (hplace ▸ h.node?_of_ok.1), p.parse_render hempty]

theorem Prepared.outcome_write (h : p.Prepared fs fs) (hown : fs.locate p.path = .ok (p.place fs))
    (hdir : fs.node? (p.place fs) ≠ some .directory)
    (hwrite : fs.refusal .write (p.stagingPlace fs) = none)
    (hrename : fs.refusal .rename (p.place fs) = none) (entries : KeyMap String) :
    outcome (p.write entries).run fs = .ok () := by
  have hextends := extends_setNode h.free (.file (.text (p.format.render entries)))
  have hstaged := FileSystem.node?_setNode fs (p.stagingPlace fs)
    (.file (.text (p.format.render entries))) h.stagingPlace_ne_nil
  rw [if_pos rfl] at hstaged
  have hdir' : (fs.setNode (p.stagingPlace fs)
      (.file (.text (p.format.render entries)))).node? (p.place fs) ≠ some .directory := by
    rw [h.node?_setNode]
    exact hdir
  have hrun := run_rename (hextends.locate h.located) (hextends.locate hown) hstaged hdir' hrename
  rw [outcome, write, run_bind_of_ok h.made, run_bind_of_ok (run_write h.located h.free hwrite _)]
  exact congrArg (·.1) hrun

theorem Writing.outcome_again (h : p.Writing entries fs (.ok ()) fs') (entries' : KeyMap String) :
    outcome (p.write entries').run fs' = .ok () := by
  obtain ⟨hplace, hstagingPlace⟩ := p.place_congr h.extends.home
  obtain ⟨hown, hstaging⟩ := h.node?_of_ok
  have hrefusal := h.refusal
  have hlocate := h.locate_of_ok
  cases h with
  | moved hprepared hdir hwrite hrename hmoved _ =>
      have hstaged : fs'.locate p.stagingPath = .ok (p.stagingPlace fs) :=
        hmoved ▸ (hprepared.extends_moved hdir _).locate hprepared.located
      rw [← hplace] at hlocate hown hrename
      rw [← hstagingPlace] at hstaged hstaging hwrite
      have hagain : p.Prepared fs' fs' :=
        ⟨makeParents_of_locate hlocate, hstaged, by rw [hstaging]; nofun⟩
      refine hagain.outcome_write hlocate ?_ (hrefusal ▸ hwrite) (hrefusal ▸ hrename) entries'
      rw [hown]
      nofun

theorem outcome_persist_of_error {e : ConfigError} (h : p.read w.files = .error e)
    (changes : ChangeSet) : outcome (p.persist changes).run w = .error e := by
  rw [outcome, run_persist, h]

theorem outcome_persist {changes : ChangeSet} (hread : p.read w.files = .ok entries)
    (hwrite : outcome (p.write (changes.applyTo entries)).run w.files = .ok ()) :
    outcome (p.persist changes).run w = .ok () := by
  rw [outcome, run_persist, hread]
  dsimp only
  cases hrun : (p.write (changes.applyTo entries)).run.run w.files with
  | mk written files =>
      rw [outcome, hrun] at hwrite
      obtain rfl : written = .ok () := hwrite
      rfl

/-- A routine that succeeds keeps what it has written, would read it again if it is not too large,
and could write again. -/
theorem Persisting.reads {changes : ChangeSet} (h : p.Persisting changes w (.ok ()) w')
    (hproper : changes.Proper) (hlegible : w.files.Legible (p.place w.files)) :
    ∃ before, p.read w.files = .ok before ∧ p.current w' = .ok (changes.applyTo before) ∧
      p.read w'.files =
        (if sizeLimit < (p.format.render (changes.applyTo before)).utf8ByteSize then
          .error (p.oversize (p.format.render (changes.applyTo before)).utf8ByteSize)
        else .ok (changes.applyTo before)) ∧
      ∀ entries, outcome (p.write entries).run w'.files = .ok () := by
  cases h with
  | @written before files hread hwriting =>
      have hempty : (changes.applyTo before).get? "" = none := by
        rw [ChangeSet.applyTo_eq_writeTo]
        exact hproper.get?_writeTo_empty id (not_mem_of_read hread)
      exact ⟨before, hread, current_of_some (if_pos rfl), hwriting.read hlegible hempty,
        hwriting.outcome_again⟩

/-- What a commit that succeeds leaves to be read. The provider answers from what it read before with
the changes applied, which is what it has written. If this is not too large, the provider reads
just this when it is reloaded, and every further commit succeeds; if it is too large, nothing is
read again and no commit succeeds. -/
theorem commit_reload {tag : Tag} {backend : String}
    {steps : List (Step (ChangeRequest Act) RequestCall World)} {r r' : ChangeRequest Act}
    (h : Run ChangeRequest.perform (.create tag backend p.persist) steps r)
    (hlegible : w.files.Legible (p.place w.files))
    (hcommit : (r.perform .commit).run w = ((.ok (), r'), w')) :
    ∃ before, p.read w.files = .ok before ∧
      let content := r.changes.applyTo before
      let size := (p.format.render content).utf8ByteSize
      let reloaded := after p.reload w'
      (∀ qs, .reload ∉ qs → outcome (p.askAll qs) w' = qs.map (p.answerFrom (.ok content))) ∧
      (size ≤ sizeLimit →
        (∀ qs, outcome (p.askAll qs) reloaded = qs.map (p.answerFrom (.ok content))) ∧
          ∀ changes, outcome (p.persist changes).run reloaded = .ok ()) ∧
      (sizeLimit < size →
        (∀ qs, outcome (p.askAll qs) reloaded =
          qs.map (p.answerFrom (.error (p.oversize size)))) ∧
          ∀ changes, outcome (p.persist changes).run reloaded = .error (p.oversize size)) := by
  have hsound := ChangeRequest.sound_of_run h
  obtain ⟨-, hpersist⟩ := (ChangeRequest.turn_of_perform hcommit).routine
  rw [hsound.persist_eq] at hpersist
  obtain ⟨before, hread, hcurrent, hagain, hwrite⟩ :=
    (persisting_of_run hpersist).reads hsound.proper hlegible
  refine ⟨before, hread, ?_⟩
  intro content size reloaded
  have hreloaded : p.current reloaded = p.read w'.files := p.current_reload w'
  refine ⟨?_, ?_, ?_⟩
  · intro qs hqs
    rw [outcome_askAll, hcurrent, answersFrom_of_not_mem hqs]
  · intro hsize
    rw [if_neg (Nat.not_lt.2 hsize)] at hagain
    refine ⟨?_, ?_⟩
    · intro qs
      have hfiles : p.read reloaded.files = .ok content := hagain
      rw [outcome_askAll, hreloaded, hagain, hfiles, answersFrom_self]
    · intro changes
      exact outcome_persist (w := reloaded) hagain (hwrite _)
  · intro hsize
    rw [if_pos hsize] at hagain
    refine ⟨?_, ?_⟩
    · intro qs
      have hfiles : p.read reloaded.files = .error (p.oversize size) := hagain
      rw [outcome_askAll, hreloaded, hagain, hfiles, answersFrom_self]
    · intro changes
      exact outcome_persist_of_error (w := reloaded) hagain changes

end FileProvider

theorem Content.length_le_size (s : String) : s.length ≤ (Content.text s).size := by
  have hchars : ∀ cs : List Char, cs.length ≤ String.utf8Len cs := by
    intro cs
    induction cs with
    | nil => exact Nat.le_refl _
    | cons c cs ih =>
        have hpos := c.utf8Size_pos
        rw [String.utf8Len_cons, List.length_cons]
        omega
  rw [size, ← String.utf8Len_toList, ← String.length_toList]
  exact hchars s.toList

namespace Format.Flat

theorem length_escapeChar_pos (isKey isFirst : Bool) (c : Char) :
    0 < (escapeChar isKey isFirst c).length := by
  unfold escapeChar
  split_ifs <;> exact Nat.succ_pos _

theorem length_escapeValue (s : List Char) : s.length ≤ (escapeValue s).length := by
  have htail : ∀ cs : List Char, cs.length ≤ (cs.flatMap (escapeChar false false)).length := by
    intro cs
    induction cs with
    | nil => exact Nat.le_refl _
    | cons c cs ih =>
        have hpos := length_escapeChar_pos false false c
        rw [List.flatMap_cons, List.length_append, List.length_cons]
        omega
  cases s with
  | nil => exact Nat.le_refl _
  | cons c cs =>
      have hpos := length_escapeChar_pos false true c
      have hcs := htail cs
      rw [escapeValue, List.length_append, List.length_cons]
      omega

theorem length_lt_render {m : KeyMap String} {key value : String} (h : m.get? key = some value) :
    value.length < (render m).utf8ByteSize := by
  obtain ⟨front, back, hentries⟩ := List.append_of_mem (KeyMap.get?_eq_some_iff.1 h)
  have hentry : value.length < (renderEntry key value).length := by
    have hvalue := length_escapeValue value.toList
    rw [String.length_toList] at hvalue
    rw [renderEntry]
    simp only [List.length_append, List.length_cons]
    omega
  have hall : (renderEntry key value).length ≤ (renderEntries m.entries).length := by
    rw [renderEntries, hentries]
    simp only [List.flatMap_append, List.flatMap_cons, List.length_append]
    omega
  calc value.length < (renderEntry key value).length := hentry
    _ ≤ (renderEntries m.entries).length := hall
    _ = (render m).length := (String.length_ofList).symm
    _ ≤ (render m).utf8ByteSize := Content.length_le_size (render m)

end Format.Flat

namespace Sample

open FileProvider

/-- A request on the file of a provider, with one value staged. -/
def onePut (p : FileProvider) (value : String) : ChangeRequest Act :=
  ⟨0, (FileSystem.empty "/work").address p.path, none, .opened, ChangeSet.empty.put "k" value,
    p.persist⟩

theorem run_onePut (p : FileProvider) (value : String) :
    ∃ steps, Run ChangeRequest.perform
      (.create 0 ((FileSystem.empty "/work").address p.path) p.persist) steps (onePut p value) := by
  have hput : (ChangeRequest.perform
      (.create 0 ((FileSystem.empty "/work").address p.path) p.persist) (.put "k" value)).run
        (World.initial "/work") = ((.ok (), onePut p value), World.initial "/work") := rfl
  exact ⟨_, .snoc .nil hput⟩

def settingsFile : FileProvider := ⟨0, "a.properties", "a.properties", 0, true, .flat⟩

theorem persist_settingsFile (changes : ChangeSet) :
    outcome (settingsFile.persist changes).run (World.initial "/work") = .ok () := by
  have hprepared : settingsFile.Prepared (.empty "/work") (.empty "/work") := by
    have hlocate : (FileSystem.empty "/work").locate settingsFile.path = .ok ["a.properties"] := rfl
    refine ⟨FileSystem.makeParents_of_locate hlocate, rfl, ?_⟩
    nofun
  exact outcome_persist rfl (hprepared.outcome_write rfl nofun rfl rfl _)

theorem commit_settingsFile (value : String) : ∃ r' w',
    (settingsFile.persist (onePut settingsFile value).changes).run.run (World.initial "/work") =
        (.ok (), w') ∧
      ((onePut settingsFile value).perform .commit).run (World.initial "/work") =
        ((.ok (), r'), w') := by
  have hpersist := persist_settingsFile (onePut settingsFile value).changes
  cases hrun : (settingsFile.persist (onePut settingsFile value).changes).run.run
      (World.initial "/work") with
  | mk result w' =>
      rw [outcome, hrun] at hpersist
      obtain rfl : result = .ok () := hpersist
      refine ⟨(onePut settingsFile value).close .committed, w', rfl, ?_⟩
      have hroutine : ((onePut settingsFile value).persist (onePut settingsFile value).changes).run.run
          (World.initial "/work") = (.ok (), w') := hrun
      rw [ChangeRequest.run_commit rfl, hroutine]

/-- A small document is read again as it was written. -/
theorem settingsFile_reload : ∃ r' w',
    ((onePut settingsFile "1").perform .commit).run (World.initial "/work") = ((.ok (), r'), w') ∧
      outcome (settingsFile.askAll [.get "k", .reload, .get "k"]) (after settingsFile.reload w') =
        [.ok (.value (some ⟨"k", some "1", "a.properties", .empty⟩)), .ok .done,
          .ok (.value (some ⟨"k", some "1", "a.properties", .empty⟩))] := by
  obtain ⟨steps, hrun⟩ := run_onePut settingsFile "1"
  obtain ⟨r', w', -, hcommit⟩ := commit_settingsFile "1"
  refine ⟨r', w', hcommit, ?_⟩
  obtain ⟨before, hread, -, hsmall, -⟩ := commit_reload hrun ⟨rfl, rfl⟩ hcommit
  obtain rfl : KeyMap.empty = before := Except.ok.inj hread
  rw [(hsmall (by decide +kernel)).1]
  rfl

def huge : String := String.ofList (List.replicate sizeLimit 'x')

theorem length_huge : huge.length = sizeLimit := by
  rw [huge, String.length_ofList, List.length_replicate]

/-- A document with a value that is too large is written, and not read again. -/
theorem huge_put_unreadable : ∃ r' w',
    ((onePut settingsFile huge).perform .commit).run (World.initial "/work") = ((.ok (), r'), w') ∧
      outcome (settingsFile.askAll [.get "k"]) w' =
        [.ok (.value (some ⟨"k", some huge, "a.properties", .empty⟩))] ∧
      ∃ e, outcome (settingsFile.askAll [.reload, .get "k"]) w' = [.ok .done, .error e] := by
  obtain ⟨steps, hrun⟩ := run_onePut settingsFile huge
  obtain ⟨r', w', hpersist, hcommit⟩ := commit_settingsFile huge
  refine ⟨r', w', hcommit, ?_⟩
  obtain ⟨before, hread, hcurrent, hagain, -⟩ := (persisting_of_run hpersist).reads
    (ChangeRequest.sound_of_run hrun).proper ⟨rfl, rfl⟩
  obtain rfl : KeyMap.empty = before := Except.ok.inj hread
  have hvalue : ((onePut settingsFile huge).changes.applyTo .empty).get? "k" = some huge := rfl
  have hsize : sizeLimit <
      (settingsFile.format.render ((onePut settingsFile huge).changes.applyTo .empty)).utf8ByteSize := by
    have hlength := Format.Flat.length_lt_render hvalue
    rw [length_huge] at hlength
    exact hlength
  rw [if_pos hsize] at hagain
  refine ⟨?_, ?_⟩
  · rw [outcome_askAll, hcurrent]
    rfl
  · rw [outcome_askAll, hagain]
    exact ⟨_, rfl⟩

end Sample

end LayeredConfig
