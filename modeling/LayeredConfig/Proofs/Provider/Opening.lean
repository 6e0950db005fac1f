import LayeredConfig.Proofs.Change.Staging
import LayeredConfig.Proofs.Lookup.Steady
import LayeredConfig.Provider.File
import LayeredConfig.Provider.Memory
import LayeredConfig.Sample.Provider

/-!
Opening requests. A provider opens its requests fresh and for its own backend, and opening one
writes nothing. The routines of memory providers write to the provider's own entries and to no
others.
-/

namespace LayeredConfig

variable {σ β : Type}

/-- A provider opens its requests fresh: open, with nothing staged, and for the backend that it
names at this time. -/
def Provider.OpensFresh (p : Provider (StateM σ)) : Prop :=
  ∀ access, p.access = some access → ∀ s r, outcome access.openRequest.run s = .ok r →
    r.state = .opened ∧ r.changes = .empty ∧ outcome access.backend.run s = .ok r.backend

def Provider.HasBackend (p : Provider (StateM σ)) (uri : String) : Prop :=
  ∃ access, p.access = some access ∧ ∃ s, outcome access.backend.run s = .ok uri

def Provider.OpensQuietly {γ : Type} (f : σ → γ) (p : Provider (StateM σ)) : Prop :=
  ∀ access, p.access = some access → ∀ s, f (after access.openRequest.run s) = f s

/-- When the routine of a request succeeds, it has applied the changes that it got to one of several
contents, and has left the others alone. -/
def ChangeRequest.WritesTo (payload : String → β) (content : Nat → σ → KeyMap β) (i : Nat)
    (r : ChangeRequest (StateM σ)) : Prop :=
  ∀ changes s t, (r.persist changes).run.run s = (.ok (), t) →
    ∀ j, content j t = if j = i then changes.writeTo payload (content j s) else content j s

/-- A provider whose requests write to one of several contents, and to it only when they are
committed. -/
structure Provider.WritesTo (payload : String → β) (content : Nat → σ → KeyMap β) (i : Nat)
    (p : Provider (StateM σ)) : Prop where
  fresh : p.OpensFresh
  quiet : p.OpensQuietly fun s j => content j s
  routine : ∀ access, p.access = some access → ∀ s r, outcome access.openRequest.run s = .ok r →
    r.WritesTo payload content i

namespace MemoryProvider

/-- What a provider holds under a key: nothing, an absent payload, or a text. -/
def held (p : MemoryProvider) (key : String) (w : World) : Option (Option String) :=
  (w.memory p.tag).get? key

theorem access_eq_some {p : MemoryProvider} {access : WriteAccess Act}
    (h : p.toProvider.access = some access) :
    access.backend = p.backend ∧ access.openRequest = p.openRequest := by
  cases hwritable : p.writable with
  | false => simp [toProvider, hwritable] at h
  | true =>
      simp only [toProvider, hwritable, if_true, Option.some.injEq] at h
      subst h
      exact ⟨rfl, rfl⟩

theorem accepts_target (p : MemoryProvider) (change : Mutation) :
    p.toProvider.target.accepts change = p.accepts change.key := by
  cases hwritable : p.writable with
  | false => simp [Provider.target, toProvider, accepts, hwritable]
  | true =>
      cases change <;>
        simp [Provider.target, WriteAccess.accepts, Mutation.key, toProvider, hwritable]

theorem eq_create_of_openRequest {p : MemoryProvider} {w : World} {r : ChangeRequest Act}
    (h : outcome p.openRequest.run w = .ok r) :
    ∃ uri, p.backend = .ok uri ∧ r = .create w.nextTag uri p.persist := by
  rw [openRequest] at h
  cases hwritable : p.writable with
  | false =>
      rw [hwritable] at h
      cases h
  | true =>
      rw [hwritable] at h
      cases huri : p.backend with
      | error e =>
          rw [huri] at h
          cases h
      | ok uri =>
          rw [huri] at h
          cases h
          exact ⟨uri, rfl, rfl⟩

theorem memory_openRequest (p : MemoryProvider) (w : World) :
    (after p.openRequest.run w).memory = w.memory := by
  rw [openRequest]
  cases p.writable with
  | false => rfl
  | true =>
      cases p.backend with
      | error e => rfl
      | ok uri => rfl

theorem opensFresh (p : MemoryProvider) : p.toProvider.OpensFresh := by
  intro access haccess w r hr
  obtain ⟨hbackend, hopen⟩ := access_eq_some haccess
  rw [hopen] at hr
  obtain ⟨uri, huri, rfl⟩ := eq_create_of_openRequest hr
  rw [hbackend, huri]
  exact ⟨rfl, rfl, rfl⟩

theorem writesTo (p : MemoryProvider) (tags : Nat → Tag) {i : Nat} (htag : tags i = p.tag)
    (hdistinct : ∀ j, tags j = tags i → j = i) :
    p.toProvider.WritesTo some (fun j w => w.memory (tags j)) i := by
  refine ⟨p.opensFresh, ?_, ?_⟩
  · intro access haccess w
    simp only [(access_eq_some haccess).2, memory_openRequest]
  · intro access haccess w r hr
    rw [(access_eq_some haccess).2] at hr
    obtain ⟨uri, -, rfl⟩ := eq_create_of_openRequest hr
    intro changes w t hpersist j
    cases hpersist
    change (if tags j = p.tag then apply changes (w.memory p.tag) else w.memory (tags j)) = _
    by_cases hj : j = i
    · subst hj
      rw [if_pos htag, if_pos rfl, ← htag]
      rfl
    · have htags : tags j ≠ p.tag := fun hsame => hj (hdistinct j (hsame.trans htag.symm))
      rw [if_neg htags, if_neg hj]

end MemoryProvider

theorem FileProvider.opensFresh (p : FileProvider) : p.toProvider.OpensFresh := by
  intro access haccess w r hr
  cases hwritable : p.writable with
  | false => simp [toProvider, hwritable] at haccess
  | true =>
      simp only [toProvider, hwritable, if_true, Option.some.injEq] at haccess
      subst haccess
      simp only [openRequest, hwritable] at hr
      cases hr
      exact ⟨rfl, rfl, rfl⟩

theorem Sample.opensFresh_broken (tag : Tag) (name : String) (ordinal : Int) (failOpen : Bool)
    (fresh : StateM σ Tag) : (broken tag name ordinal failOpen fresh).OpensFresh := by
  intro access haccess s r hr
  cases haccess
  cases failOpen with
  | true => cases hr
  | false =>
      dsimp only at hr ⊢
      cases haddress : brokenAddress name with
      | error e =>
          rw [haddress] at hr
          cases hr
      | ok uri =>
          rw [haddress] at hr
          cases hr
          exact ⟨rfl, rfl, rfl⟩

end LayeredConfig
