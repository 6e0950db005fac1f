import LayeredConfig.Proofs.Bridge.Supplier
import LayeredConfig.Proofs.Conversion.Consultation

/-!
Hints that declare nothing. Converters that do not look at hints convert with such hints as they do
without any. Where a look-up goes, however, hangs on whether there are hints at all, before anything
in them is read: the native view of a host configuration leaves a look-up to the host only if there
are none. With hints the converters of its context are asked, and a context that has been taken over
from the host has no converters.
-/

namespace LayeredConfig

/-- Hints that declare neither another key nor a default. -/
structure Hints.Neutral (hints : Hints) : Prop where
  name : hints.name = .none
  fallback : hints.fallback = .none

/-- A converter answers a request in the same way with any hints. -/
structure Converter.IgnoresHints {m : Type → Type} (c : Converter m) : Prop where
  convert : ∀ r hints text, c.convert { r with hints } text = c.convert r text
  convertAbsent : ∀ r hints, c.convertAbsent { r with hints } = c.convertAbsent r

variable {σ : Type}

/-- What becomes of a payload that nobody converts. A text stands for itself. -/
def unconverted (key : String) (target : Descriptor) :
    Option String → Except ConfigError (Option (Converted (StateM σ)))
  | none => .ok none
  | some text =>
    if target.isText then .ok (some (.value (.text text)))
    else if target.wrapping = .optional then .ok none
    else .error (.conversionFailed key target.effective.display text [])

theorem ConverterTable.mem_toList_of_mem_find {m : Type → Type} {table : ConverterTable m}
    {typeName : String} {c : Converter m} (h : c ∈ table.find typeName) : c ∈ table.toList := by
  induction table with
  | nil => cases h
  | cons e table ih =>
      obtain ⟨t, cs⟩ := e
      rw [toList, List.flatMap_cons, List.mem_append]
      rw [find] at h
      split at h
      · exact .inl h
      · exact .inr (ih h)

namespace Configuration

variable {hints : Hints} {c : Configuration (StateM σ)}

theorem convertShown_neutral (hneutral : hints.Neutral)
    (hignored : ∀ converter ∈ c.context.converters.toList, converter.IgnoresHints) (key : String)
    (target : Descriptor) :
    c.convertShown key target (some hints) = c.convertShown key target none := by
  have hfound : ∀ converter ∈ c.context.converters.find target.typeName, converter.IgnoresHints :=
    fun converter h => hignored converter (ConverterTable.mem_toList_of_mem_find h)
  rw [convertShown, convertShown, Option.bind_some, hneutral.fallback]
  congr
  funext found
  let request : ConversionRequest (StateM σ) := ⟨key, target, some c.ambient, none, []⟩
  dsimp only
  split
  · rfl
  · cases found with
    | none =>
        exact convertNothing_within (fun converter h r =>
          (hfound converter h).convertAbsent (r.within (some c.ambient) none) (some hints)) request
    | some text =>
        exact convertText_within (fun converter h r =>
          (hfound converter h).convert (r.within (some c.ambient) none) (some hints) text) request

theorem lookup_neutral (hneutral : hints.Neutral)
    (hignored : ∀ converter ∈ c.context.converters.toList, converter.IgnoresHints) (key : String)
    (target : Descriptor) : c.lookup key target (some hints) = (do
      ConfigError.requireKey key
      c.convertShown key target none : ExceptT ConfigError (StateM σ) _) := by
  have hsome : some hints = none → c.view.host? = none := nofun
  rw [lookup_of_shown hsome, Option.bind_some, hneutral.name, Option.getD_none,
    convertShown_neutral hneutral hignored]

theorem convertText_nil (text : String) (r : ConversionRequest (StateM σ)) (s : σ) :
    (convertText text r []).run.run s =
      (if r.target.wrapping = .optional then .ok none
        else .error (.conversionFailed r.key r.target.effective.display text r.formats), s) := by
  change StateT.run (ExceptT.run (if r.target.wrapping = .optional then pure none else throw _)) s = _
  split
  · rfl
  · rfl

theorem convertShown_unconverted (hconverters : c.context.converters = []) {key : String}
    (hkey : key ≠ "") (target : Descriptor) {s t : σ} {found : Option PropertyValue}
    (hfound : (c.view.get key).run.run s = (.ok found, t)) :
    (c.convertShown key target none).run.run s =
      (unconverted key target (found.bind (·.value)), t) := by
  rw [convertShown_run hkey target none hfound, hconverters, Option.bind_none, Option.or_none]
  cases found.bind (·.value) with
  | none =>
      dsimp only
      split
      · rfl
      · rw [convertNothing]
        split
        · rfl
        · rfl
  | some text =>
      rw [unconverted]
      cases htext : target.isText with
      | true => rfl
      | false =>
          rw [if_neg Bool.false_ne_true]
          exact convertText_nil text _ t

theorem convertAny_of_host {h : HostConfig (StateM σ)} (hview : c.view.host? = some h) {key : String}
    (hkey : key ≠ "") {target : Descriptor} (htarget : target.wrapping ≠ .deferred) :
    c.convertAny key target none = h.typedValue key target := by
  rw [convertAny_of_not_deferred htarget, lookup_of_host hview, ConfigError.requireKey_ok hkey]
  rfl

theorem convertAny_unconverted (hneutral : hints.Neutral) (hconverters : c.context.converters = [])
    {key : String} (hkey : key ≠ "") {target : Descriptor} (htarget : target.wrapping ≠ .deferred)
    {s t : σ} {found : Option PropertyValue}
    (hfound : (c.view.get key).run.run s = (.ok found, t)) :
    (c.convertAny key target (some hints)).run.run s =
      (unconverted key target (found.bind (·.value)), t) := by
  have hignored : ∀ converter ∈ c.context.converters.toList, converter.IgnoresHints := by
    rw [hconverters]
    nofun
  rw [convertAny_of_not_deferred htarget, lookup_neutral hneutral hignored,
    ConfigError.requireKey_ok hkey]
  exact convertShown_unconverted hconverters hkey target hfound

/-- A configuration that is no view of the host converts with hints that declare nothing as it does
without hints, to values as well as to handles. One that has been taken over from the host leaves
every conversion without hints to the host, whereas with such hints it keeps the payload: a text is
no value of any other type, whatever the host would make of it. -/
theorem convert_neutral (hneutral : hints.Neutral)
    (hignored : ∀ converter ∈ c.context.converters.toList, converter.IgnoresHints) :
    (c.view.host? = none →
      (∀ key target, c.convertAny key target (some hints) = c.convertAny key target none) ∧
      ∀ typeName key target,
        c.convert typeName key target (some hints) = c.convert typeName key target none) ∧
    ∀ tag (h : HostConfig (StateM σ)) (s₀ s₁ : σ), h.native = none →
      (Bridge.toNativeConfig tag h).run.run s₀ = (.ok c, s₁) → ∀ key target, key ≠ "" →
        target.wrapping ≠ .deferred → c.convertAny key target none = h.typedValue key target ∧
        ∀ s t found, (c.view.get key).run.run s = (.ok found, t) →
          (c.convertAny key target (some hints)).run.run s =
            (unconverted key target (found.bind (·.value)), t) := by
  refine ⟨?_, ?_⟩
  · intro hview
    refine converts_congr fun key target _ => ?_
    rw [lookup_neutral hneutral hignored, lookup_of_shown fun _ => hview]
    rfl
  · intro tag h s₀ s₁ hforeign htaken key target hkey htarget
    obtain ⟨context, rfl, hconverters⟩ := Bridge.toNativeConfig_eq_ok hforeign htaken
    refine ⟨convertAny_of_host rfl hkey htarget, ?_⟩
    intro s t found hfound
    exact convertAny_unconverted hneutral hconverters hkey htarget hfound

end Configuration

namespace Sample

def annotated : Hints := ⟨none, none, .ofList [("unit", "pieces")]⟩

theorem ignoresHints_tally :
    ∀ converter ∈ tally.context.converters.toList, converter.IgnoresHints := by
  change ∀ converter ∈ [ruled 1 _ _ _ _, ruled 3 _ _ _ _, ruled 2 _ _ _ _], _
  simp only [List.forall_mem_cons]
  exact ⟨⟨fun _ _ _ => rfl, fun _ _ => rfl⟩, ⟨fun _ _ _ => rfl, fun _ _ => rfl⟩,
    ⟨fun _ _ _ => rfl, fun _ _ => rfl⟩, nofun⟩

/-- The annotation changes nothing for converters that do not look at it. -/
theorem tally_annotated :
    let w := (World.initial "/").setMemory 0 (.ofList [("count", some "many")])
    (tally.convertAny "count" (.optional "String") (some annotated)).run.run w =
      (.ok (some (.value (.text "many"))), w) := by
  intro w
  have hneutral : annotated.Neutral := ⟨rfl, rfl⟩
  obtain ⟨hsame, -⟩ := Configuration.convert_neutral hneutral ignoresHints_tally
  rw [(hsame rfl).1]
  rfl

theorem taken_pairHost :
    ∃ context : Context (StateM Unit), context.converters = [] ∧
      (Bridge.toNativeConfig 3 (pairHost 4)).run.run () =
        (.ok ⟨context, Bridge.hostView 3 (pairHost 4)⟩, ()) ∧
      ((pairHost 4).typedValue "l" (.plain "i64")).run.run () =
        (.ok (some (.value (.integer .i64 3))), ()) ∧
      ((Bridge.hostView 3 (pairHost 4)).get "l").run.run () =
        (.ok (some ⟨"l", some "3", "second", .empty⟩), ()) := by
  let := unmoved
  have hl := listing_pairHost (show (4 : Int) ≤ 5 by decide)
  obtain ⟨context, htaken⟩ := hl.gives_taken 3
  obtain ⟨u, -, hrun⟩ := htaken () (Setoid.refl ())
  obtain ⟨_, hc, hconverters⟩ := Bridge.toNativeConfig_eq_ok rfl hrun
  cases hc
  have htyped : Gives ((pairHost 4).typedValue "l" (.plain "i64")).run ()
      (.ok (some (.value (.integer .i64 3)))) := (hl.value "l").lift.bindExcept (.ok _ ())
  obtain ⟨v, -, htyped⟩ := htyped () (Setoid.refl ())
  obtain ⟨w, -, hfound⟩ := hl.gives_get 3 "l" () (Setoid.refl ())
  exact ⟨context, hconverters, hrun, htyped, hfound⟩

/-- The host takes the text for a number. With hints nobody does, empty as they are. -/
theorem pairHost_hints_matter :
    ∃ c, (Bridge.toNativeConfig 3 (pairHost 4)).run.run () = (.ok c, ()) ∧
      (∀ converter ∈ c.context.converters.toList, converter.IgnoresHints) ∧ Hints.none.Neutral ∧
      (c.convertAny "l" (.plain "i64") none).run.run () =
        (.ok (some (.value (.integer .i64 3))), ()) ∧
      (c.convertAny "l" (.plain "i64") (some Hints.none)).run.run () =
        (.error (.conversionFailed "l" "i64" "3" []), ()) := by
  obtain ⟨context, hconverters, hrun, htyped, hfound⟩ := taken_pairHost
  have hneutral : Hints.none.Neutral := ⟨rfl, rfl⟩
  have hkey : "l" ≠ "" := by decide
  have htarget : (Descriptor.plain "i64").wrapping ≠ .deferred := nofun
  refine ⟨_, hrun, ?_, hneutral, ?_, ?_⟩
  · rw [hconverters]
    nofun
  · rw [Configuration.convertAny_of_host rfl hkey htarget]
    exact htyped
  · exact Configuration.convertAny_unconverted (c := ⟨context, Bridge.hostView 3 (pairHost 4)⟩)
      hneutral hconverters hkey htarget hfound

end Sample

end LayeredConfig
