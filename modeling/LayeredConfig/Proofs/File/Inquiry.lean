import LayeredConfig.Proofs.Provider.Steady

/-!
What a file provider answers. It answers from what it has kept, and after it is reloaded from what it
reads; so where a provider finds both as before, nothing that it is asked tells the difference.
-/

namespace LayeredConfig

/-- What a file provider is asked, or told. -/
inductive Inquiry
  | get (key : String)
  | properties
  | reload

inductive Answer
  | value (v : Option PropertyValue)
  | values (m : KeyMap PropertyValue)
  | done
  deriving DecidableEq

namespace Inquiry

/-- The answer that follows from the entries of a source, of which some are listed. -/
def answer (source : String) (listed : KeyMap String → List (String × String))
    (entries : KeyMap String) : Inquiry → Except ConfigError Answer
  | .get key => do
    match entries.get? key with
    | some value => return .value (some (← PropertyValue.of key value source))
    | none => return .value none
  | .properties => do return .values (← PropertyValue.mapOf (listed entries) source)
  | .reload => .ok .done

variable {x : ExceptT ConfigError Act (KeyMap String)} {source : String}

theorem get_eq_bind (key : String) (listed : KeyMap String → List (String × String)) :
    (do return .value (← (do
      match (← x).get? key with
      | some value => return some (← PropertyValue.of key value source)
      | none => return none : ExceptT ConfigError Act (Option PropertyValue))) :
        ExceptT ConfigError Act Answer) =
      x >>= fun entries => (answer source listed entries (.get key) :
        ExceptT ConfigError Act Answer) := by
  rw [bind_assoc]
  congr
  funext entries
  rw [answer]
  cases entries.get? key with
  | none => rfl
  | some value =>
      dsimp only
      cases PropertyValue.of key value source with
      | ok v => rfl
      | error e => rfl

theorem properties_eq_bind (listed : KeyMap String → List (String × String)) :
    (do return .values (← (do PropertyValue.mapOf (listed (← x)) source :
        ExceptT ConfigError Act (KeyMap PropertyValue))) : ExceptT ConfigError Act Answer) =
      x >>= fun entries => (answer source listed entries .properties :
        ExceptT ConfigError Act Answer) := by
  rw [bind_assoc]
  congr
  funext entries
  rw [answer]
  cases PropertyValue.mapOf (listed entries) source with
  | ok m => rfl
  | error e => rfl

end Inquiry

namespace FileProvider

def ask (p : FileProvider) : Inquiry → ExceptT ConfigError Act Answer
  | .get key => return .value (← p.toProvider.get key)
  | .properties => return .values (← p.toProvider.properties)
  | .reload => do
    p.reload
    return .done

def askAll (p : FileProvider) : List Inquiry → Act (List (Except ConfigError Answer))
  | [] => return []
  | q :: qs => do
    let answer ← (p.ask q).run
    return answer :: (← p.askAll qs)

/-- What a provider answers from: the entries that it has kept, or else what it reads. -/
def current (p : FileProvider) (w : World) : Except ConfigError (KeyMap String) :=
  w.kept (fun _ files _ => p.read files) p.tag

/-- The answer that follows from the entries, or from the failure to read them. -/
def answerFrom (p : FileProvider) (entries : Except ConfigError (KeyMap String)) :
    Inquiry → Except ConfigError Answer
  | .get key => do
    match (← entries).get? key with
    | some value => return .value (some (← PropertyValue.of key value p.name))
    | none => return .value none
  | .properties => do
    let entries ← entries
    return .values (← PropertyValue.mapOf entries.entries p.name)
  | .reload => .ok .done

/-- The answers of a provider that has some entries at first and finds others when it is reloaded. -/
def answersFrom (p : FileProvider) (kept found : Except ConfigError (KeyMap String)) :
    List Inquiry → List (Except ConfigError Answer)
  | [] => []
  | .reload :: qs => .ok .done :: p.answersFrom found found qs
  | q :: qs => p.answerFrom kept q :: p.answersFrom kept found qs

variable {p : FileProvider} {w : World} {q : Inquiry} {qs : List Inquiry}

theorem current_of_none (h : w.snapshots p.tag = none) : p.current w = p.read w.files := by
  rw [current, World.kept, h]

theorem current_of_some {entries : KeyMap String} (h : w.snapshots p.tag = some entries) :
    p.current w = .ok entries := by
  rw [current, World.kept, h]

theorem current_reload (p : FileProvider) (w : World) :
    p.current (after p.reload w) = p.read w.files :=
  current_of_none (w := after p.reload w) (if_pos rfl)

theorem entries_spec (p : FileProvider) (w : World) :
    outcome p.entries.run w = p.current w ∧ (after p.entries.run w).files = w.files ∧
      p.current (after p.entries.run w) = p.current w := by
  have hrun := p.entries_run w
  rw [outcome, after, hrun]
  cases hkept : w.snapshots p.tag with
  | some entries => exact ⟨(current_of_some hkept).symm, rfl, rfl⟩
  | none =>
      have hcurrent := current_of_none hkept
      cases hread : p.read w.files with
      | error e => exact ⟨(hcurrent.trans hread).symm, rfl, rfl⟩
      | ok entries =>
          have hlater : p.current (w.setSnapshot p.tag (some entries)) = .ok entries :=
            current_of_some (if_pos rfl)
          exact ⟨(hcurrent.trans hread).symm, rfl, hlater.trans (hcurrent.trans hread).symm⟩

theorem run_entries_bind (p : FileProvider) (w : World) {α : Type}
    (f : KeyMap String → Except ConfigError α) :
    (p.entries >>= fun entries => (f entries : ExceptT ConfigError Act α)).run.run w =
      (p.current w >>= f, after p.entries.run w) := by
  have hrun : p.entries.run.run w = (p.current w, after p.entries.run w) := by
    rw [← (p.entries_spec w).1]
    rfl
  exact run_bind_check hrun

theorem answerFrom_eq_bind (p : FileProvider) (h : q ≠ .reload)
    (entries : Except ConfigError (KeyMap String)) :
    p.answerFrom entries q = entries >>= fun found => p.answerFrom (.ok found) q := by
  cases q with
  | reload => exact absurd rfl h
  | get key =>
      cases entries with
      | error e => rfl
      | ok found => rfl
  | properties =>
      cases entries with
      | error e => rfl
      | ok found => rfl

theorem ask_eq_bind (p : FileProvider) (h : q ≠ .reload) :
    p.ask q = p.entries >>= fun entries =>
      (p.answerFrom (.ok entries) q : ExceptT ConfigError Act Answer) := by
  cases q with
  | reload => exact absurd rfl h
  | get key => exact Inquiry.get_eq_bind key (·.entries)
  | properties => exact Inquiry.properties_eq_bind (·.entries)

/-- An inquiry is answered from the current entries. Only a reload makes others current. -/
theorem ask_spec (p : FileProvider) (q : Inquiry) (w : World) :
    outcome (p.ask q).run w = p.answerFrom (p.current w) q ∧
      (after (p.ask q).run w).files = w.files ∧
        (q ≠ .reload → p.current (after (p.ask q).run w) = p.current w) := by
  by_cases hq : q = .reload
  · subst hq
    exact ⟨rfl, rfl, fun h => absurd rfl h⟩
  · have hrun := p.run_entries_bind w fun entries => p.answerFrom (.ok entries) q
    rw [← p.ask_eq_bind hq, ← p.answerFrom_eq_bind hq] at hrun
    obtain ⟨-, hfiles, hcurrent⟩ := p.entries_spec w
    rw [outcome, after, hrun]
    exact ⟨rfl, hfiles, fun _ => hcurrent⟩

theorem outcome_askAll (p : FileProvider) (qs : List Inquiry) (w : World) :
    outcome (p.askAll qs) w = p.answersFrom (p.current w) (p.read w.files) qs := by
  induction qs generalizing w with
  | nil => rfl
  | cons q qs ih =>
      obtain ⟨hanswer, hfiles, hcurrent⟩ := p.ask_spec q w
      change outcome (p.ask q).run w :: outcome (p.askAll qs) (after (p.ask q).run w) = _
      rw [hanswer, ih, hfiles]
      cases q with
      | reload =>
          change _ :: p.answersFrom (p.current (after p.reload w)) _ qs = _
          rw [current_reload]
          rfl
      | get key =>
          rw [hcurrent nofun]
          rfl
      | properties =>
          rw [hcurrent nofun]
          rfl

theorem answersFrom_self (p : FileProvider) (entries : Except ConfigError (KeyMap String))
    (qs : List Inquiry) : p.answersFrom entries entries qs = qs.map (p.answerFrom entries) := by
  induction qs with
  | nil => rfl
  | cons q qs ih =>
      rw [List.map_cons, ← ih]
      cases q with
      | reload => rfl
      | _ => rfl

theorem answersFrom_of_not_mem (h : .reload ∉ qs) (kept found : Except ConfigError (KeyMap String)) :
    p.answersFrom kept found qs = qs.map (p.answerFrom kept) := by
  induction qs with
  | nil => rfl
  | cons q qs ih =>
      rw [List.map_cons, ← ih fun hmem => h (List.mem_cons_of_mem q hmem)]
      cases q with
      | reload => exact absurd List.mem_cons_self h
      | _ => rfl

end FileProvider

end LayeredConfig
