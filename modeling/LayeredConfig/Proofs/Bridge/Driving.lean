import LayeredConfig.Proofs.Context.Table
import LayeredConfig.Sample.Host
import Mathlib.Data.List.Forall2

/-!
Driving a builder of the host across the bridge. It may be turned over and back any number of times,
and called through either contract in between. The builder hears every call that the host's contract
has a word for, once and in order; the other ones are noted, whatever it is turned into, and are
what its build fails with.
-/

namespace LayeredConfig

/-- The contract through which a builder is held. -/
inductive Side
  | native | host

def Handle (m : Type → Type) : Side → Type
  | .native => NativeBuilder m
  | .host => HostBuilder m

def Built (m : Type → Type) : Side → Type
  | .native => Configuration m
  | .host => HostConfig m

/-- What is done with a builder: it is called, or turned over to the other contract. -/
inductive Move (m : Type → Type) : Side → Side → Type
  | native (call : NativeCall m) : Move m .native .native
  | host (call : HostCall m) : Move m .host .host
  | toHost : Move m .native .host
  | toNative : Move m .host .native

/-- Moves from one contract to another, the latest one last. -/
inductive Script (m : Type → Type) (a : Side) : Side → Type
  | nil : Script m a a
  | snoc {b c : Side} : Script m a b → Move m b c → Script m a c

variable {m : Type → Type}

/-- The name of a call that the host's contract has no word for. -/
def NativeCall.unsupported? : NativeCall m → Option String
  | removeProviders _ => some "remove_providers"
  | addFilters _ => some "add_filters"
  | addProviders _ | addConverter _ | addDefaultProviders | addDiscoveredProviders
  | addDefaultConverters | withEnvironment _ => none

def Script.collect {α : Type} {a : Side} (f : {b c : Side} → Move m b c → Option α) :
    {b : Side} → Script m a b → List α
  | _, nil => []
  | _, snoc script move => script.collect f ++ (f move).toList

def Move.unsupported? : {a b : Side} → Move m a b → Option String
  | _, _, native call => call.unsupported?
  | _, _, host _ => none
  | _, _, toHost => none
  | _, _, toNative => none

/-- The names of the calls that the host has no word for, each one where it is called first. -/
def Script.refused {a b : Side} (script : Script m a b) : List String :=
  (script.collect Move.unsupported?).eraseDups

section
variable [Monad m]

def Move.peer? : {a b : Side} → Move m a b → Option (HostCall m)
  | _, _, native call => call.peer.toOption
  | _, _, host call => some call
  | _, _, toHost => none
  | _, _, toNative => none

def Script.peers {a b : Side} (script : Script m a b) : List (HostCall m) :=
  script.collect Move.peer?

def Move.perform : {a b : Side} → Move m a b → Handle m a → m (Handle m b)
  | _, _, native call, builder => NativeBuilder.call call builder
  | _, _, host call, builder => HostBuilder.call call builder
  | _, _, toHost, builder => return Bridge.toHostBuilder builder
  | _, _, toNative, builder => return Bridge.toNativeBuilder builder

def Script.perform {a : Side} : {b : Side} → Script m a b → Handle m a → m (Handle m b)
  | _, nil, builder => return builder
  | _, snoc script move, builder => do move.perform (← script.perform builder)

def Handle.build (tag : Tag) : {a : Side} → Handle m a → ExceptT ConfigError m (Built m a)
  | .native, builder => NativeBuilder.build tag builder
  | .host, builder => HostBuilder.build tag builder

def deliver (tag : Tag) : (a : Side) → HostConfig m → ExceptT ConfigError m (Built m a)
  | .native, h => Bridge.toNativeConfig tag h
  | .host, h => return h

end

mutual

/-- The builder of the host that a builder drives in the end. -/
def NativeBuilder.foreign? : NativeBuilder m → Option (ForeignBuilder m)
  | .own _ | .handedOut _ => none
  | .overHost h _ => h.foreign?

def HostBuilder.foreign? : HostBuilder m → Option (ForeignBuilder m)
  | .foreign f => some f
  | .overNative n => n.foreign?
  | .handedOut => none

end

def Handle.foreign? : {a : Side} → Handle m a → Option (ForeignBuilder m)
  | .native, builder => NativeBuilder.foreign? builder
  | .host, builder => HostBuilder.foreign? builder

def ForeignBuilder.hear (f : ForeignBuilder m) (calls : List (HostCall m)) : ForeignBuilder m :=
  { f with received := f.received ++ calls }

theorem ForeignBuilder.hear_nil (f : ForeignBuilder m) : f.hear [] = f := by
  simp [hear]

theorem ForeignBuilder.hear_hear (f : ForeignBuilder m) (calls calls' : List (HostCall m)) :
    (f.hear calls).hear calls' = f.hear (calls ++ calls') := by
  simp [hear]

variable [Monad m]

/-- What a source comes back as from the library: itself, or a view of the provider that it stands
for. -/
def HostSource.Returns (s s' : HostSource m) : Prop :=
  s' = s ∨ ∃ p, s.provider = some p ∧ s' = Bridge.toHostSource p.tag p

def HostConverter.Returns (h h' : HostConverter m) : Prop :=
  h' = h ∨ ∃ c, h.native = some c ∧ h' = Bridge.toHostConverter c.tag c

/-- What a call comes back as: the same call, with what its parts come back as. -/
inductive HostCall.Returns : HostCall m → HostCall m → Prop
  | same (call) : Returns call call
  | withSources {sources sources'} : List.Forall₂ HostSource.Returns sources sources' →
      Returns (.withSources sources) (.withSources sources')
  | withConverter {h h'} : h.Returns h' → Returns (.withConverter h) (.withConverter h')

theorem HostSource.returns (s : HostSource m) :
    s.Returns (Bridge.toHostSource (Bridge.toNativeProvider s.tag s).tag
      (Bridge.toNativeProvider s.tag s)) := by
  cases h : s.provider with
  | none =>
      left
      simp [Bridge.toNativeProvider, h, Bridge.toHostSource, Bridge.wrapSource]
  | some p =>
      right
      exact ⟨p, h, by simp [Bridge.toNativeProvider, h]⟩

theorem HostConverter.returns (h : HostConverter m) :
    h.Returns (Bridge.toHostConverter (Bridge.toNativeConverter h.tag h).tag
      (Bridge.toNativeConverter h.tag h)) := by
  cases hnative : h.native with
  | none =>
      left
      simp [Bridge.toNativeConverter, hnative, Bridge.toHostConverter, Bridge.wrapHostConverter]
  | some c =>
      right
      exact ⟨c, hnative, by simp [Bridge.toNativeConverter, hnative]⟩

theorem HostCall.peer_peer (call : HostCall m) :
    ∃ call', call.peer.peer = .ok call' ∧ call.Returns call' := by
  cases call with
  | withSources sources =>
      refine ⟨_, rfl, .withSources ?_⟩
      rw [Bridge.toHostSources, Bridge.toNativeProviders, List.map_map, List.forall₂_map_right_iff,
        List.forall₂_same]
      exact fun s _ => s.returns
  | withConverter h => exact ⟨_, rfl, .withConverter h.returns⟩
  | addDefaultSources => exact ⟨_, rfl, .same _⟩
  | addDiscoveredSources => exact ⟨_, rfl, .same _⟩
  | addDiscoveredConverters => exact ⟨_, rfl, .same _⟩
  | forEnvironment e => exact ⟨_, rfl, .same _⟩

theorem NativeCall.peer_cases (call : NativeCall m) :
    (∃ peer, call.peer = .ok peer ∧ call.unsupported? = none) ∨
      ∃ name, call.peer = .error name ∧ call.unsupported? = some name := by
  cases call with
  | removeProviders names => exact .inr ⟨_, rfl, rfl⟩
  | addFilters filters => exact .inr ⟨_, rfl, rfl⟩
  | addProviders providers => exact .inl ⟨_, rfl, rfl⟩
  | addConverter c => exact .inl ⟨_, rfl, rfl⟩
  | addDefaultProviders => exact .inl ⟨_, rfl, rfl⟩
  | addDiscoveredProviders => exact .inl ⟨_, rfl, rfl⟩
  | addDefaultConverters => exact .inl ⟨_, rfl, rfl⟩
  | withEnvironment e => exact .inl ⟨_, rfl, rfl⟩

/-- A builder of the host as it is held while some names are noted: as it is, behind a builder of
the library that drives it, or behind the host's view of one that has noted a name. -/
inductive Drives (f : ForeignBuilder m) : List String → {a : Side} → Handle m a → Prop
  | itself : Drives f [] (a := .host) (.foreign f)
  | native (names) : Drives f names (a := .native) (.overHost (.foreign f) names)
  | view {names} : names ≠ [] →
      Drives f names (a := .host) (.overNative (.overHost (.foreign f) names))

variable {f : ForeignBuilder m} {names : List String} {a b : Side} {builder : Handle m a}

omit [Monad m] in
theorem Drives.foreign? (h : Drives f names builder) : builder.foreign? = some f := by
  cases h with
  | itself => rfl
  | native => rfl
  | view => rfl

omit [Monad m] in
theorem Drives.hear_nil (h : Drives f names builder) : Drives (f.hear []) names builder := by
  rwa [f.hear_nil]

theorem note_ne_nil (names : List String) (name : String) : note names name ≠ [] := by
  rw [note]
  split
  · rename_i h
    rintro rfl
    simp at h
  · simp

theorem overHost_call_unsupported (f : ForeignBuilder m) (names : List String)
    {call : NativeCall m} {name : String} (h : call.peer = .error name) :
    NativeBuilder.call call (.overHost (.foreign f) names) =
      pure (.overHost (.foreign f) (note names name)) := by
  rw [NativeBuilder.call, h]

variable [LawfulMonad m]

theorem overHost_call (f : ForeignBuilder m) (names : List String) {call : NativeCall m}
    {peer : HostCall m} (h : call.peer = .ok peer) :
    NativeBuilder.call call (.overHost (.foreign f) names) =
      pure (.overHost (.foreign (f.hear [peer])) names) := by
  rw [NativeBuilder.call, h]
  simp only [HostBuilder.call, pure_bind]
  rfl

/-- What the host hears of a move, and which names are noted after it. -/
theorem Drives.perform (h : Drives f names builder) (move : Move m a b) :
    ∃ builder' heard, move.perform builder = pure builder' ∧
      List.Forall₂ HostCall.Returns move.peer?.toList heard ∧
      (names = [] → heard = move.peer?.toList) ∧
      Drives (f.hear heard) (move.unsupported?.elim names (note names)) builder' := by
  cases h with
  | itself =>
      cases move with
      | host call =>
          exact ⟨_, [call], rfl, .cons (.same call) .nil, fun _ => rfl, .itself⟩
      | toNative => exact ⟨_, [], rfl, .nil, fun _ => rfl, (Drives.native []).hear_nil⟩
  | native =>
      cases move with
      | native call =>
          rcases call.peer_cases with ⟨peer, hpeer, hname⟩ | ⟨name, hpeer, hname⟩
          · refine ⟨_, [peer], overHost_call f names hpeer, ?_⟩
            rw [Move.peer?, Move.unsupported?, hpeer, hname]
            exact ⟨.cons (.same peer) .nil, fun _ => rfl, .native names⟩
          · refine ⟨_, [], overHost_call_unsupported f names hpeer, ?_⟩
            rw [Move.peer?, Move.unsupported?, hpeer, hname, f.hear_nil]
            exact ⟨.nil, fun _ => rfl, .native _⟩
      | toHost =>
          -- Only a builder without noted names is unwrapped.
          cases names with
          | nil => exact ⟨_, [], rfl, .nil, fun _ => rfl, Drives.itself.hear_nil⟩
          | cons name names =>
              exact ⟨_, [], rfl, .nil, fun _ => rfl,
                (Drives.view (List.cons_ne_nil name names)).hear_nil⟩
  | view hnames =>
      cases move with
      | host call =>
          obtain ⟨call', hpeer, hreturns⟩ := call.peer_peer
          refine ⟨.overNative (.overHost (.foreign (f.hear [call'])) names), [call'], ?_,
            .cons hreturns .nil, fun hnil => absurd hnil hnames, .view hnames⟩
          change HostBuilder.call call _ = _
          rw [HostBuilder.call, overHost_call f names hpeer, pure_bind]
          rfl
      | toNative => exact ⟨_, [], rfl, .nil, fun _ => rfl, (Drives.native names).hear_nil⟩

theorem Drives.build (h : Drives f names builder) (tag : Tag) :
    builder.build tag =
      if names = [] then f.build f.received tag >>= deliver tag a else throw (rejection names) := by
  cases h with
  | itself => exact (bind_pure (f.build f.received tag)).symm
  | native =>
      change NativeBuilder.build tag _ = _
      rw [NativeBuilder.build]
      by_cases hnames : names = []
      · simp [hnames, HostBuilder.build]
        rfl
      · simp [hnames]
        rfl
  | view hnames =>
      change HostBuilder.build tag _ = _
      rw [HostBuilder.build, NativeBuilder.build]
      simp [hnames]
      rfl

omit [Monad m] [LawfulMonad m] in
theorem Script.refused_snoc {c : Side} (script : Script m a b) (move : Move m b c) :
    (script.snoc move).refused = move.unsupported?.elim script.refused (note script.refused) := by
  rw [refused, collect]
  cases move.unsupported? with
  | none => exact congrArg List.eraseDups (List.append_nil _)
  | some name =>
      rw [Option.toList_some, eraseDups_concat, Option.elim_some, note, refused]
      simp

theorem Script.drives (f : ForeignBuilder m) (script : Script m .host a) :
    ∃ builder heard, script.perform (a := .host) (.foreign f) = pure builder ∧
      List.Forall₂ HostCall.Returns script.peers heard ∧
      (script.refused = [] → heard = script.peers) ∧
      Drives (f.hear heard) script.refused builder := by
  induction script with
  | nil => exact ⟨.foreign f, [], rfl, .nil, fun _ => rfl, Drives.itself.hear_nil⟩
  | snoc script move ih =>
      obtain ⟨builder, heard, hperform, hreturns, hsame, hdrives⟩ := ih
      obtain ⟨builder', heard', hperform', hreturns', hsame', hdrives'⟩ := hdrives.perform move
      refine ⟨builder', heard ++ heard', ?_, List.rel_append hreturns hreturns', ?_, ?_⟩
      · change (script.perform _ >>= move.perform) = _
        rw [hperform, pure_bind, hperform']
      · intro hnone
        have hbefore : script.refused = [] := by
          rw [refused_snoc] at hnone
          cases hname : move.unsupported? with
          | none => rwa [hname] at hnone
          | some name =>
              rw [hname] at hnone
              exact absurd hnone (note_ne_nil _ name)
        rw [hsame hbefore, hsame' hbefore]
        rfl
      · rw [refused_snoc, ← f.hear_hear]
        exact hdrives'

/-- A builder of the host that is driven across the bridge. It hears what the moves say to the host,
each once and in order; as long as nothing has been refused, in the very words. Once a call has been
refused, the build fails with all the names of such calls in the order of their first calls, and the
host's builder does not build. Otherwise it builds once, from what it has heard. -/
theorem Script.perform_foreign (f : ForeignBuilder m) (script : Script m .host a) :
    ∃ builder heard, script.perform (a := .host) (.foreign f) = pure builder ∧
      builder.foreign? = some { f with received := f.received ++ heard } ∧
      List.Forall₂ HostCall.Returns script.peers heard ∧
      (script.refused = [] → heard = script.peers) ∧
      ∀ tag, builder.build tag =
        if script.refused = [] then f.build (f.received ++ heard) tag >>= deliver tag a
        else throw (.adapterRejection (", ".intercalate script.refused) "host") := by
  obtain ⟨builder, heard, hperform, hreturns, hsame, hdrives⟩ := script.drives f
  exact ⟨builder, heard, hperform, hdrives.foreign?, hreturns, hsame, hdrives.build⟩

namespace Sample

/-- Two calls that the host has no word for, one of them made again later, and one that it hears. -/
def errand : Script Id .host .native :=
  ((((((Script.nil.snoc .toNative).snoc (.native (.addFilters []))).snoc .toHost).snoc
    (.host .addDefaultSources)).snoc .toNative).snoc
    (.native (.removeProviders ["host-defaults"]))).snoc (.native (.addFilters []))

/-- Neither name is lost on the way back to the host or noted again. -/
theorem errand_refused :
    ∃ (builder : Handle Id .native) (heard : List (HostCall Id)),
      errand.perform (a := .host) (.foreign hostBuilder) = pure builder ∧
      List.Forall₂ HostCall.Returns [.addDefaultSources] heard ∧
      (builder.build 0).run =
        Except.error (.adapterRejection "add_filters, remove_providers" "host") := by
  obtain ⟨builder, heard, hperform, -, hreturns, -, hbuild⟩ :=
    Script.perform_foreign hostBuilder errand
  refine ⟨builder, heard, hperform, hreturns, ?_⟩
  rw [hbuild, if_neg (by decide)]
  rfl

end Sample

end LayeredConfig
