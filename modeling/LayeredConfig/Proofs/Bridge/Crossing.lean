import LayeredConfig.Bridge.Builder
import LayeredConfig.Proofs.Bridge.Supplier
import Mathlib.Algebra.Ring.Parity

/-!
Crossing the bridge again and again. What crosses it is wrapped on the way out and unwrapped on the
way back, so it never lies under more than one adapter: after an even number of crossings it is what
it was, after an odd number it is under one adapter of the other side.
-/

namespace LayeredConfig

/-- An object that the bridge takes to the other side. -/
inductive Bridged (m : Type → Type)
  | provider (p : Provider m)
  | source (s : HostSource m)
  | converter (c : Converter m)
  | hostConverter (h : HostConverter m)
  | configuration (c : Configuration m)
  | hostConfig (h : HostConfig m)
  | nativeBuilder (b : NativeBuilder m)
  | hostBuilder (b : HostBuilder m)

namespace Bridged

section
variable {m : Type → Type}

/-- The object of the other side that an adapter is known to stand for. -/
def inner? : Bridged m → Option (Bridged m)
  | provider p => p.source.map source
  | source s => s.provider.map provider
  | converter c => c.host.map hostConverter
  | hostConverter h => h.native.map converter
  | configuration c => c.view.host?.map hostConfig
  | hostConfig h => h.native.map configuration
  | nativeBuilder (.overHost h _) => some (hostBuilder h)
  | nativeBuilder (.own _) | nativeBuilder (.handedOut _) => none
  | hostBuilder (.overNative n) => some (nativeBuilder n)
  | hostBuilder (.foreign _) | hostBuilder .handedOut => none

variable [Monad m]

/-- The first object is an adapter that has been put around the second one. -/
inductive Adapts : Bridged m → Bridged m → Prop
  | source (tag p) : Adapts (source (Bridge.wrapProvider tag p)) (provider p)
  | provider (tag s) : Adapts (provider (Bridge.wrapSource tag s)) (source s)
  | hostConverter (tag c) : Adapts (hostConverter (Bridge.wrapConverter tag c)) (converter c)
  | converter (tag h) : Adapts (converter (Bridge.wrapHostConverter tag h)) (hostConverter h)
  | hostConfig (tag c) : Adapts (hostConfig (Bridge.wrapConfiguration tag c)) (configuration c)
  | configuration (context tag h) :
      Adapts (configuration ⟨context, Bridge.hostView tag h⟩) (hostConfig h)
  | hostBuilder (n) : Adapts (hostBuilder (.overNative n)) (nativeBuilder n)
  | nativeBuilder (h) : Adapts (nativeBuilder (.overHost h [])) (hostBuilder h)

theorem Adapts.inner? {x y : Bridged m} (h : Adapts y x) : y.inner? = some x := by
  cases h with
  | source => rfl
  | provider => rfl
  | hostConverter => rfl
  | converter => rfl
  | hostConfig => rfl
  | configuration => rfl
  | hostBuilder => rfl
  | nativeBuilder => rfl

end

variable {σ : Type} {x y z : Bridged (StateM σ)} {n : Nat}

/-- An object is taken to the other side. Only the host's configurations may be refused there. -/
inductive Crosses : Bridged (StateM σ) → Bridged (StateM σ) → Prop
  | toHostSource (tag p) : Crosses (provider p) (source (Bridge.toHostSource tag p))
  | toNativeProvider (tag s) : Crosses (source s) (provider (Bridge.toNativeProvider tag s))
  | toHostConverter (tag c) : Crosses (converter c) (hostConverter (Bridge.toHostConverter tag c))
  | toNativeConverter (tag h) :
      Crosses (hostConverter h) (converter (Bridge.toNativeConverter tag h))
  | toHostConfig (tag c) : Crosses (configuration c) (hostConfig (Bridge.toHostConfig tag c))
  | toNativeConfig {tag h c s t} : (Bridge.toNativeConfig tag h).run.run s = (.ok c, t) →
      Crosses (hostConfig h) (configuration c)
  | toHostBuilder (b) : Crosses (nativeBuilder b) (hostBuilder (Bridge.toHostBuilder b))
  | toNativeBuilder (b) : Crosses (hostBuilder b) (nativeBuilder (Bridge.toNativeBuilder b))

/-- An object is taken from side to side a number of times. Anything may happen in between. -/
inductive Crossings (x : Bridged (StateM σ)) : Nat → Bridged (StateM σ) → Prop
  | zero : Crossings x 0 x
  | succ {n : Nat} {y z : Bridged (StateM σ)} :
      Crossings x n y → Crosses y z → Crossings x (n + 1) z

theorem Crosses.adapts (h : Crosses x y) (hx : x.inner? = none) : Adapts y x := by
  cases h with
  | toHostSource tag p =>
      rw [Bridge.toHostSource, Option.map_eq_none_iff.1 hx]
      exact .source tag p
  | toNativeProvider tag s =>
      rw [Bridge.toNativeProvider, Option.map_eq_none_iff.1 hx]
      exact .provider tag s
  | toHostConverter tag c =>
      rw [Bridge.toHostConverter, Option.map_eq_none_iff.1 hx]
      exact .hostConverter tag c
  | toNativeConverter tag h =>
      rw [Bridge.toNativeConverter, Option.map_eq_none_iff.1 hx]
      exact .converter tag h
  | toHostConfig tag c =>
      rw [Bridge.toHostConfig, Option.map_eq_none_iff.1 hx]
      exact .hostConfig tag c
  | @toNativeConfig tag h c s t hrun =>
      obtain ⟨context, rfl, -⟩ := Bridge.toNativeConfig_eq_ok (Option.map_eq_none_iff.1 hx) hrun
      exact .configuration context tag h
  | toHostBuilder b =>
      cases b with
      | own b => exact .hostBuilder _
      | overHost h names => cases hx
      | handedOut names => exact .hostBuilder _
  | toNativeBuilder b =>
      cases b with
      | foreign f => exact .nativeBuilder _
      | overNative n => cases hx
      | handedOut => exact .nativeBuilder _

/-- An adapter is taken off, and never put into another one. -/
theorem Crosses.eq_of_adapts (h : Crosses y z) (hy : Adapts y x) : z = x := by
  cases hy with
  | source tag p => cases h; rfl
  | provider tag s => cases h; rfl
  | hostConverter tag c => cases h; rfl
  | converter tag h' => cases h; rfl
  | hostConfig tag c =>
      cases h with
      | toNativeConfig hrun =>
          -- What stands for a configuration hands it out, and its sources are not asked for.
          cases hrun
          rfl
  | configuration context tag h' => cases h; rfl
  | hostBuilder n => cases h; rfl
  | nativeBuilder h' => cases h; rfl

theorem Crossings.parity (h : Crossings x n y) (hx : x.inner? = none) :
    Even n ∧ y = x ∨ Odd n ∧ Adapts y x := by
  induction h with
  | zero => exact .inl ⟨.zero, rfl⟩
  | succ hbefore hcross ih =>
      rcases ih with ⟨heven, rfl⟩ | ⟨hodd, hadapts⟩
      · exact .inr ⟨heven.add_one, hcross.adapts hx⟩
      · exact .inl ⟨hodd.add_one, hcross.eq_of_adapts hadapts⟩

/-- Whatever stands for nothing itself, be it a provider, a converter, a configuration or a builder
of either side: after an even number of crossings it is there itself, and after an odd number it is
there under one adapter. No adapter lies under another one. -/
theorem Crossings.collapse (h : Crossings x n y) (hx : x.inner? = none) :
    (Even n → y = x) ∧ (Odd n → Adapts y x) ∧ ∀ z, y.inner? = some z → z.inner? = none := by
  rcases h.parity hx with ⟨heven, rfl⟩ | ⟨hodd, hadapts⟩
  · refine ⟨fun _ => rfl, fun hodd => absurd heven (Nat.not_even_iff_odd.2 hodd), ?_⟩
    intro z hz
    rw [hx] at hz
    cases hz
  · refine ⟨fun heven => absurd heven (Nat.not_even_iff_odd.2 hodd), fun _ => hadapts, ?_⟩
    intro z hz
    rw [hadapts.inner?] at hz
    cases hz
    exact hx

end Bridged

namespace Sample

/-- A host configuration is taken over, given back, and taken over again. -/
theorem pairHost_crosses :
    ∃ c, Bridged.Crossings (.hostConfig (pairHost 4)) 3 (.configuration c) ∧
      Bridged.inner? (.hostConfig (pairHost 4)) = none ∧
        Bridged.Adapts (.configuration c) (.hostConfig (pairHost 4)) := by
  let := unmoved
  obtain ⟨context, htaken⟩ :=
    (listing_pairHost (show (4 : Int) ≤ 5 by decide)).gives_taken 3
  obtain ⟨u, -, hrun⟩ := htaken () (Setoid.refl ())
  have hover : Bridged.Crossings (.hostConfig (pairHost 4)) 1 (.configuration ⟨context, _⟩) :=
    .succ .zero (.toNativeConfig hrun)
  have hback : Bridged.Crossings (.hostConfig (pairHost 4)) 2 (.hostConfig (pairHost 4)) :=
    .succ hover (.toHostConfig 4 _)
  have hagain : Bridged.Crossings (.hostConfig (pairHost 4)) 3 (.configuration ⟨context, _⟩) :=
    .succ hback (.toNativeConfig hrun)
  exact ⟨_, hagain, rfl, (Bridged.Crossings.collapse hagain rfl).2.1 (by decide)⟩

end Sample

end LayeredConfig
