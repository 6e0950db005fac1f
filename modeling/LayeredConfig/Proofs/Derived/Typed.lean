import LayeredConfig.Converter.Standard
import LayeredConfig.Proofs.Conversion.Hints
import LayeredConfig.Proofs.Derived.Composition
import LayeredConfig.Sample.Converter

/-!
Typed look-ups of a key that a derived configuration keeps. What the key stands for is the same,
and so are the converters, since they come with the context. Two things are not the same: a
converter may look at the configuration that it converts in, which is now the derived one; and only
the native view of a host configuration leaves conversions to the host, not what is derived from it.
-/

namespace LayeredConfig

/-- A converter cannot tell two configurations around a request from one another. -/
structure Converter.Indifferent {m : Type → Type} (c : Converter m) (a b : Ambient m) : Prop where
  convert : ∀ (r : ConversionRequest m) text,
    c.convert { r with ambient := some a } text = c.convert { r with ambient := some b } text
  convertAbsent : ∀ r : ConversionRequest m,
    c.convertAbsent { r with ambient := some a } = c.convertAbsent { r with ambient := some b }

theorem Converter.Indifferent.refl {m : Type → Type} (c : Converter m) (a : Ambient m) :
    c.Indifferent a a := ⟨fun _ _ => rfl, fun _ => rfl⟩

theorem Conversion.indifferent {m : Type → Type} [Monad m] (c : Conversion) (tag : Tag)
    (a b : Ambient m) : (c.toConverter tag).Indifferent a b := ⟨fun _ _ => rfl, fun _ => rfl⟩

variable {σ : Type}

theorem Deferred.run_get_congr {a b : Deferred (StateM σ)} {s : σ}
    (hresolve : b.resolve.run.run s = a.resolve.run.run s) (htarget : b.target = a.target)
    (typeName : String) :
    (b.get typeName).run.run s = (a.get typeName).run.run s := by
  rw [get, get, htarget]
  cases a.target.requireType typeName with
  | error e => rfl
  | ok u => exact run_bind_congr hresolve _

namespace Configuration

/-- The configurations derived from another one, nested in any way, that in some state keep what it
shows under a key: the key lies in the section that they are restricted to, a selection accepts the
value, a renaming or a stripped section answers for the key as before, or one configuration alone is
laid over nothing. -/
inductive Keeping (key : String) (s : σ) (c : Configuration (StateM σ)) :
    Configuration (StateM σ) → Prop
  | self : Keeping key s c c
  | inSection {d} (tag : Tag) (sect : String) : Keeping key s c d →
      Key.sectionPrefix sect.toList <+: key.toList → Keeping key s c (d.inSection tag sect false)
  | stripped {d} (tag : Tag) (sect : String) : Keeping key s c d →
      ((d.inSection tag sect true).view.get key).run.run s = (d.view.get key).run.run s →
      Keeping key s c (d.inSection tag sect true)
  | select {d} (tag : Tag) (test : String → String → Bool) : Keeping key s c d →
      (∀ found t, (d.view.get key).run.run s = (.ok (some found), t) →
        test found.key (found.value.getD "") = true) →
      Keeping key s c (d.select tag test)
  | rename {d} (tag : Tag) (f : String → Option String) : Keeping key s c d →
      ((d.rename tag f).view.get key).run.run s = (d.view.get key).run.run s →
      Keeping key s c (d.rename tag f)
  | combine {d e} (tag : Tag) (name : String) {u t : σ} : Keeping key s c d →
      (Configuration.combine tag name [d]).run.run u = (.ok e, t) → Keeping key s c e

variable {key : String} {s : σ} {c d e : Configuration (StateM σ)}

theorem Keeping.inSections (h : Keeping key s c d) (tag : Tag) {sections : List String}
    (hsections : ∃ sect ∈ sections, Key.sectionPrefix sect.toList <+: key.toList)
    (hown : ∀ found t, (d.view.get key).run.run s = (.ok (some found), t) → found.key = key) :
    Keeping key s c (d.inSections tag sections) := by
  refine h.select tag _ fun found t hfound => ?_
  rw [hown found t hfound]
  exact Derivation.inSections_iff.2 hsections

theorem get_project {lead : List Char} (h : lead <+: key.toList) (tag : Tag)
    (v : View (StateM σ)) : (v.project tag lead false).get key = v.get key := by
  have hlead : lead.isPrefixOf key.toList = true := List.isPrefixOf_iff_prefix.2 h
  change (if lead.isPrefixOf key.toList then v.get key else pure none) = _
  rw [if_pos hlead]

theorem run_get_select {v : View (StateM σ)} {test : String → String → Bool}
    (h : ∀ found t, (v.get key).run.run s = (.ok (some found), t) →
      test found.key (found.value.getD "") = true) (tag : Tag) :
    ((v.select tag test).get key).run.run s = (v.get key).run.run s := by
  change ((v.get key >>= fun found => pure (found.filter fun found =>
    test found.key (found.value.getD ""))) : ExceptT ConfigError (StateM σ) _).run.run s = _
  cases hrun : (v.get key).run.run s with
  | mk answer t =>
      cases answer with
      | error e => exact run_bind_of_error hrun
      | ok found =>
          rw [run_bind_of_ok hrun]
          cases found with
          | none => rfl
          | some found =>
              rw [Option.filter_some, if_pos (h found t hrun)]
              rfl

theorem get_combine_single (tag : Tag) (name : String) (v : View (StateM σ)) (key : String) :
    (View.combine tag name [v]).get key = v.get key := by
  change v.get key >>= _ = _
  refine .trans ?_ (bind_pure (v.get key))
  congr
  funext found
  cases found with
  | none => rfl
  | some found => rfl

theorem combine_single {tag : Tag} {name : String} {u t : σ}
    (h : (Configuration.combine tag name [d]).run.run u = (.ok e, t)) :
    e = ⟨{ d.context with tag }, .combine tag name [d.view]⟩ := by
  cases h
  rfl

theorem Keeping.get_eq (h : Keeping key s c d) :
    (d.view.get key).run.run s = (c.view.get key).run.run s := by
  induction h with
  | self => rfl
  | @inSection d tag sect _ hsect ih =>
      rw [Derivation.inSection_eq]
      split
      · exact ih
      · change ((d.view.project tag _ false).get key).run.run s = _
        rw [get_project hsect]
        exact ih
  | stripped tag sect _ hsame ih => rw [hsame, ih]
  | select tag test _ htest ih => exact (run_get_select htest tag).trans ih
  | rename tag f _ hsame ih => rw [hsame, ih]
  | @combine d e tag name u t _ hrun ih =>
      rw [combine_single hrun, get_combine_single]
      exact ih

theorem Keeping.converters (h : Keeping key s c d) :
    d.context.converters = c.context.converters := by
  induction h with
  | self => rfl
  | inSection tag sect _ _ ih => rw [Derivation.context_inSection, ih]
  | stripped tag sect _ _ ih => rw [Derivation.context_inSection, ih]
  | select tag test _ _ ih => exact ih
  | rename tag f _ _ ih => exact ih
  | combine tag name _ hrun ih =>
      rw [combine_single hrun]
      exact ih

/-- Only the configuration itself leaves conversions to a host. -/
theorem Keeping.eq_or_own (h : Keeping key s c d) : d = c ∨ d.view.host? = none := by
  induction h with
  | self => exact .inl rfl
  | inSection tag sect _ _ ih =>
      rw [Derivation.inSection_eq]
      split
      · exact ih
      · exact .inr rfl
  | stripped tag sect _ _ _ =>
      rw [Derivation.inSection_eq, if_neg (by simp)]
      exact .inr rfl
  | select tag test _ _ _ => exact .inr rfl
  | rename tag f _ _ _ => exact .inr rfl
  | combine tag name _ hrun _ =>
      rw [combine_single hrun]
      exact .inr rfl

theorem ambient_combine {tag : Tag} {name : String} {u t : σ}
    (h : (Configuration.combine tag name [d]).run.run u = (.ok e, t)) : e.ambient = d.ambient := by
  have hget : e.get = d.get := by
    funext key
    rw [combine_single h, get, get, getValue, getValue, get_combine_single]
  have hproviders : e.context.providers = d.context.providers := by rw [combine_single h]
  rw [ambient, ambient, hget, hproviders]

variable {target : Descriptor} {hints : Option Hints}

theorem Keeping.run_get (h : Keeping key s c d) :
    (d.get key).run.run s = (c.get key).run.run s := by
  have hvalue : (d.getValue key).run.run s = (c.getValue key).run.run s := by
    rw [getValue, getValue]
    cases hkey : ConfigError.requireKey key with
    | error e => rfl
    | ok u => exact h.get_eq
  exact run_bind_congr hvalue _

theorem Keeping.run_convertShown (h : Keeping key s c d)
    (hsame : ∀ converter ∈ c.context.converters.find target.typeName,
      converter.Indifferent d.ambient c.ambient) (hints : Option Hints) :
    (d.convertShown key target hints).run.run s = (c.convertShown key target hints).run.run s := by
  rw [convertShown, convertShown, run_bind_congr h.run_get, h.converters]
  congr
  funext found
  let request : ConversionRequest (StateM σ) := ⟨key, target, none, hints, []⟩
  dsimp only
  split
  · rfl
  · cases found.or (hints.bind (·.fallback)) with
    | none =>
        exact convertNothing_within (fun converter h r =>
          (hsame converter h).convertAbsent (r.within none hints)) request
    | some text =>
        exact convertText_within (fun converter h r =>
          (hsame converter h).convert (r.within none hints) text) request

theorem Keeping.run_lookup {key : String}
    (h : Keeping ((hints.bind (·.name)).getD key) s c d)
    (hsame : ∀ converter ∈ c.context.converters.find target.typeName,
      converter.Indifferent d.ambient c.ambient)
    (hown : hints = none → c.view.host? = none) :
    (d.lookup key target hints).run.run s = (c.lookup key target hints).run.run s := by
  have hderived : hints = none → d.view.host? = none := by
    intro hnone
    rcases h.eq_or_own with rfl | hview
    · exact hown hnone
    · exact hview
  rw [lookup_of_shown hown, lookup_of_shown hderived]
  cases ConfigError.requireKey key with
  | error e => rfl
  | ok u => exact h.run_convertShown hsame hints

theorem Keeping.run_resolve {key : String}
    (h : Keeping ((hints.bind (·.name)).getD key) s c d)
    (hsame : ∀ converter ∈ c.context.converters.find target.typeName,
      converter.Indifferent d.ambient c.ambient)
    (hown : hints = none → c.view.host? = none) :
    (d.deferred key target hints).resolve.run.run s =
      (c.deferred key target hints).resolve.run.run s := by
  have heffective : (d.lookup key target.effective hints).run.run s =
      (c.lookup key target.effective hints).run.run s := h.run_lookup hsame hown
  exact run_bind_congr heffective _

theorem Keeping.run_convert {key : String}
    (h : Keeping ((hints.bind (·.name)).getD key) s c d)
    (hsame : ∀ converter ∈ c.context.converters.find target.typeName,
      converter.Indifferent d.ambient c.ambient)
    (hown : hints = none → c.view.host? = none) (typeName : String) :
    (d.convert typeName key target hints).run.run s =
      (c.convert typeName key target hints).run.run s := by
  rw [convert, convert]
  cases target.requireType typeName with
  | error e => rfl
  | ok u =>
      cases target.wrapping with
      | deferred =>
          cases ConfigError.requireKey key with
          | error e => rfl
          | ok u => exact Deferred.run_get_congr (h.run_resolve hsame hown) rfl typeName
      | plain => exact run_bind_congr (h.run_lookup hsame hown) _
      | optional => exact run_bind_congr (h.run_lookup hsame hown) _

theorem convertShown_unconverted_of_run (hconverters : c.context.converters = [])
    (hkey : key ≠ "") (target : Descriptor) {t : σ}
    {result : Except ConfigError (Option PropertyValue)}
    (hrun : (c.view.get key).run.run s = (result, t)) :
    (c.convertShown key target none).run.run s =
      (result.bind fun found => unconverted key target (found.bind (·.value)), t) := by
  cases result with
  | ok found => exact convertShown_unconverted hconverters hkey target hrun
  | error e =>
      have hvalue : (c.getValue key).run.run s = (.error e, t) := by
        rw [getValue, ConfigError.requireKey_ok hkey]
        exact hrun
      have hget : (c.get key).run.run s = (.error e, t) := run_bind_of_error hvalue
      exact run_bind_of_error hget

/-- A key that a derived configuration keeps is converted there as it is in the original one, to a
value or to a handle that is resolved when the key is kept, unless the converters for the type tell
the two configurations apart. This holds of every configuration that is no view of a host, and with
hints of any. The native view of a host leaves conversions without hints to the host; whatever is
derived from it converts the kept text itself, for which the context that is taken over has no
converters. -/
theorem convert_kept {key : String} (h : Keeping ((hints.bind (·.name)).getD key) s c d)
    (hsame : ∀ converter ∈ c.context.converters.find target.typeName,
      converter.Indifferent d.ambient c.ambient) :
    ((hints = none → c.view.host? = none) →
      (target.wrapping ≠ .deferred →
        (d.convertAny key target hints).run.run s = (c.convertAny key target hints).run.run s) ∧
      (target.wrapping = .deferred → key ≠ "" → ∃ handle handle',
        c.convertAny key target hints = pure (some (.deferred handle)) ∧
        d.convertAny key target hints = pure (some (.deferred handle')) ∧
        handle'.resolve.run.run s = handle.resolve.run.run s) ∧
      ∀ typeName, (d.convert typeName key target hints).run.run s =
        (c.convert typeName key target hints).run.run s) ∧
    ∀ tag (host : HostConfig (StateM σ)) (s₀ s₁ : σ), hints = none → host.native = none →
      (Bridge.toNativeConfig tag host).run.run s₀ = (.ok c, s₁) → d ≠ c → key ≠ "" →
        target.wrapping ≠ .deferred →
          c.convertAny key target none = host.typedValue key target ∧
          ∀ result t, (c.view.get key).run.run s = (result, t) →
            (d.convertAny key target none).run.run s =
              (result.bind fun found => unconverted key target (found.bind (·.value)), t) := by
  refine ⟨?_, ?_⟩
  · intro hown
    refine ⟨?_, ?_, h.run_convert hsame hown⟩
    · intro htarget
      rw [convertAny_of_not_deferred htarget, convertAny_of_not_deferred htarget,
        h.run_lookup hsame hown]
    · intro htarget hkey
      refine ⟨c.deferred key target hints, d.deferred key target hints, ?_, ?_,
        h.run_resolve hsame hown⟩
      · rw [convertAny, htarget, ConfigError.requireKey_ok hkey]
        rfl
      · rw [convertAny, htarget, ConfigError.requireKey_ok hkey]
        rfl
  · intro tag host s₀ s₁ hnone hforeign htaken hne hkey htarget
    subst hnone
    obtain ⟨context, rfl, hconverters⟩ := Bridge.toNativeConfig_eq_ok hforeign htaken
    refine ⟨convertAny_of_host rfl hkey htarget, ?_⟩
    intro result t hrun
    have hview : d.view.host? = none := h.eq_or_own.resolve_left hne
    rw [convertAny_of_not_deferred htarget, lookup_of_shown fun _ => hview,
      ConfigError.requireKey_ok hkey]
    exact (h.run_convertShown hsame none).trans
      (convertShown_unconverted_of_run hconverters hkey target hrun)

end Configuration

namespace Sample

def ports : Configuration Act :=
  .ofContext 4 ⟨4, [(MemoryProvider.mk 0 "notes" 0 true false none).toProvider], [],
    .ofList [(Conversion.integer .i64).toConverter 1]⟩

/-- A converter of texts that looks at another key. -/
def peeking : Configuration Act :=
  .ofContext 4 ⟨4, [(MemoryProvider.mk 0 "notes" 0 true false none).toProvider], [],
    .ofList [probe 1 true]⟩

def peeked : World :=
  (World.initial "/").setMemory 0 (.ofList [("k", some "v"), ("peek", some "x")])

def seen (peek : String) : Value :=
  .text ("key=k|target=String|config=true|providers=1|name=-|default=-|ann=-|formats=0|peek=" ++
    peek ++ "|value=v")

/-- A value that is picked out of a section is still a number, and the overlay of a configuration
alone shows a converter the other keys. -/
theorem kept_converted :
    (let w := (World.initial "/").setMemory 0 (.ofList [("app.port", some "8080"), ("k", some "v")])
      let d := (ports.inSection 5 "app" false).select 6 fun _ text => text = "8080"
      (d.convertAny "app.port" (.plain "i64") none).run.run w =
        (.ok (some (.value (.integer .i64 8080))), w)) ∧
    ∃ e, (Configuration.combine 5 "alone" [peeking]).run.run peeked = (.ok e, peeked) ∧
      (e.convertAny "k" (.plain "String") none).run.run peeked =
        (.ok (some (.value (seen "x"))), peeked) := by
  let e : Configuration Act :=
    ⟨{ peeking.context with tag := 5 }, .combine 5 "alone" [peeking.view]⟩
  have hcombined : (Configuration.combine 5 "alone" [peeking]).run.run peeked =
      (.ok e, peeked) := rfl
  refine ⟨?_, e, hcombined, ?_⟩
  · intro w d
    have hkept : Configuration.Keeping "app.port" w ports d := by
      refine .select 6 _ (.inSection 5 "app" .self (by decide)) ?_
      rintro found t hrun
      cases hrun
      rfl
    have hsame : ∀ converter ∈ ports.context.converters.find "i64",
        converter.Indifferent d.ambient ports.ambient :=
      List.forall_mem_singleton.2 (Conversion.indifferent (.integer .i64) 1 _ _)
    obtain ⟨hconverted, -⟩ := (@Configuration.convert_kept _ w ports d (.plain "i64") none
      "app.port" hkept hsame).1 fun _ => rfl
    rw [hconverted nofun]
    rfl
  · have hkept : Configuration.Keeping "k" peeked peeking e :=
      .combine 5 "alone" .self hcombined
    have hsame : ∀ converter ∈ peeking.context.converters.find "String",
        converter.Indifferent e.ambient peeking.ambient := by
      intro converter _
      rw [Configuration.ambient_combine hcombined]
      exact .refl converter peeking.ambient
    obtain ⟨hconverted, -⟩ := (@Configuration.convert_kept _ peeked peeking e (.plain "String") none
      "k" hkept hsame).1 fun _ => rfl
    rw [hconverted nofun]
    rfl

/-- A selection that accepts everything keeps what a host has under a key, and not the number that
the host makes of it. One that leaves out another key is seen by a converter that looks there. -/
theorem kept_and_told_apart :
    (∃ c, (Bridge.toNativeConfig 3 (pairHost 4)).run.run () = (.ok c, ()) ∧
      Configuration.Keeping "l" () c (c.select 5 fun _ _ => true) ∧
      (c.convertAny "l" (.plain "i64") none).run.run () =
        (.ok (some (.value (.integer .i64 3))), ()) ∧
      ((c.select 5 fun _ _ => true).convertAny "l" (.plain "i64") none).run.run () =
        (.error (.conversionFailed "l" "i64" "3" []), ())) ∧
    Configuration.Keeping "k" peeked peeking (peeking.select 5 fun key _ => key = "k") ∧
      (peeking.convertAny "k" (.plain "String") none).run.run peeked =
        (.ok (some (.value (seen "x"))), peeked) ∧
      ((peeking.select 5 fun key _ => key = "k").convertAny "k" (.plain "String") none).run.run
        peeked = (.ok (some (.value (seen "-"))), peeked) := by
  refine ⟨?_, .select 5 _ .self ?_, rfl, rfl⟩
  · obtain ⟨context, hconverters, hrun, htyped, hfound⟩ := taken_pairHost
    let c : Configuration (StateM Unit) := ⟨context, Bridge.hostView 3 (pairHost 4)⟩
    have hkey : "l" ≠ "" := by decide
    have htarget : (Descriptor.plain "i64").wrapping ≠ .deferred := nofun
    have hkept : Configuration.Keeping "l" () c (c.select 5 fun _ _ => true) :=
      .select 5 _ .self fun _ _ _ => rfl
    have hsame : ∀ converter ∈ c.context.converters.find (Descriptor.plain "i64").typeName,
        converter.Indifferent (c.select 5 fun _ _ => true).ambient c.ambient := by
      rw [hconverters]
      nofun
    have hshown := Configuration.convertShown_unconverted_of_run (c := c) hconverters hkey
      (.plain "i64") hfound
    refine ⟨c, hrun, hkept, ?_, ?_⟩
    · rw [Configuration.convertAny_of_host rfl hkey htarget]
      exact htyped
    · rw [Configuration.convertAny_of_not_deferred htarget,
        Configuration.lookup_of_shown fun _ => rfl, ConfigError.requireKey_ok hkey]
      exact (hkept.run_convertShown hsame none).trans hshown
  · rintro found t hrun
    cases hrun
    rfl

end Sample

end LayeredConfig
