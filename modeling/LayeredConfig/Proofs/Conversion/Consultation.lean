import LayeredConfig.Configuration
import LayeredConfig.Proofs.Context.Table
import LayeredConfig.Proofs.Lookup.Steady
import LayeredConfig.Provider.Memory
import LayeredConfig.Sample.Converter

/-!
Consulting converters. They are asked in the order of registration, each in the state that the one
before it left, and each is told what the ones before it advertised; the first value counts.
-/

namespace LayeredConfig

variable {σ : Type}

/-- What adverts are listed as, one entry for each format. -/
def listings (adverts : List (String × List String)) : List String :=
  adverts.flatMap fun a => a.2.map fun format => s!"{format} ({a.1})"

abbrev Asking (σ : Type) :=
  Converter (StateM σ) → ConversionRequest (StateM σ) → StateM σ ConversionReply

def askText (text : String) : Asking σ := fun c r => c.convert r text

def askAbsent : Asking σ := fun c r => c.convertAbsent r

/-- Converters are asked one after another and none of them yields: each declines or fails. What
they have advertised is gathered in the order in which they were asked. -/
inductive Declined (ask : Asking σ) : ConversionRequest (StateM σ) → σ →
    List (Converter (StateM σ)) → List (String × List String) → σ → Prop
  | nil {r s} : Declined ask r s [] [] s
  | cons {r s c cs reply t adverts u} : (ask c r).run s = (reply, t) →
      (∀ v, reply.outcome ≠ .ok (some v)) →
      Declined ask (r.advertise reply.adverts) t cs adverts u →
      Declined ask r s (c :: cs) (reply.adverts ++ adverts) u

/-- The first converter that yields yields this value; those after it are not asked. -/
def FirstYields (ask : Asking σ) (r : ConversionRequest (StateM σ)) (s : σ)
    (converters : List (Converter (StateM σ))) (v : Value) (u : σ) : Prop :=
  ∃ front c rest adverts t reply, converters = front ++ c :: rest ∧
    Declined ask r s front adverts t ∧
    (ask c (r.advertise adverts)).run t = (reply, u) ∧ reply.outcome = .ok (some v)

def ConversionRequest.within {m : Type → Type} (r : ConversionRequest m)
    (ambient : Option (Ambient m)) (hints : Option Hints) : ConversionRequest m :=
  { r with ambient, hints }

theorem ConversionRequest.advertise_append {m : Type → Type} (r : ConversionRequest m)
    (adverts adverts' : List (String × List String)) :
    (r.advertise adverts).advertise adverts' = r.advertise (adverts ++ adverts') := by
  simp only [advertise, List.foldl_append]

theorem addFormats_eraseDups (l : List String) (converter : String) (formats : List String) :
    addFormats l.eraseDups converter formats =
      (l ++ listings [(converter, formats)]).eraseDups := by
  induction formats generalizing l with
  | nil =>
      change _ = (l ++ []).eraseDups
      rw [List.append_nil]
      rfl
  | cons format formats ih =>
      let entry := s!"{format} ({converter})"
      have hentries : listings [(converter, format :: formats)] =
          [entry] ++ listings [(converter, formats)] := rfl
      have hcontains : l.eraseDups.contains entry = l.contains entry := by
        simp only [List.contains_eq_mem, List.mem_eraseDups]
      have hone : (if l.eraseDups.contains entry then l.eraseDups else l.eraseDups ++ [entry]) =
          (l ++ [entry]).eraseDups := by
        rw [hcontains, eraseDups_concat]
      change addFormats (if l.eraseDups.contains entry then _ else _) converter formats = _
      rw [hone, ih, hentries, List.append_assoc]

theorem ConversionRequest.formats_advertise {m : Type → Type} {r : ConversionRequest m}
    (hr : r.formats = []) (adverts : List (String × List String)) :
    (r.advertise adverts).formats = (listings adverts).eraseDups := by
  suffices hfold : ∀ l : List String,
      adverts.foldl (fun listed a => addFormats listed a.1 a.2) l.eraseDups =
        (l ++ listings adverts).eraseDups by
    have hnil := hfold []
    rw [List.nil_append] at hnil
    change adverts.foldl _ r.formats = _
    rw [hr]
    exact hnil
  induction adverts with
  | nil =>
      intro l
      exact (congrArg List.eraseDups (List.append_nil l)).symm
  | cons a adverts ih =>
      intro l
      have hentries : listings (a :: adverts) = listings [(a.1, a.2)] ++ listings adverts := by
        simp [listings]
      rw [List.foldl_cons, addFormats_eraseDups, ih, hentries, List.append_assoc]

namespace Configuration

variable {ask : Asking σ} {r : ConversionRequest (StateM σ)} {s t : σ}

theorem firstYield_cons_yields {c : Converter (StateM σ)} {reply : ConversionReply} {v : Value}
    (h : (ask c r).run s = (reply, t)) (hv : reply.outcome = .ok (some v))
    (cs : List (Converter (StateM σ))) :
    (firstYield ask r (c :: cs)).run s = ((some v, r.advertise reply.adverts), t) := by
  rw [firstYield, run_bind, outcome, after, h]
  dsimp only
  rw [hv]
  rfl

theorem firstYield_cons_declines {c : Converter (StateM σ)} {reply : ConversionReply}
    (h : (ask c r).run s = (reply, t)) (hv : ∀ v, reply.outcome ≠ .ok (some v))
    (cs : List (Converter (StateM σ))) :
    (firstYield ask r (c :: cs)).run s = (firstYield ask (r.advertise reply.adverts) cs).run t := by
  rw [firstYield, run_bind, outcome, after, h]
  dsimp only
  cases hanswer : reply.outcome with
  | error fault => rfl
  | ok value =>
      cases value with
      | none => rfl
      | some v => exact absurd hanswer (hv v)

/-- Asking ends with the first value, or with all that was advertised. -/
theorem firstYield_run (ask : Asking σ) (r : ConversionRequest (StateM σ))
    (converters : List (Converter (StateM σ))) (s : σ) :
    (∃ v adverts u, FirstYields ask r s converters v u ∧
      (firstYield ask r converters).run s = ((some v, r.advertise adverts), u)) ∨
    ∃ adverts u, Declined ask r s converters adverts u ∧
      (firstYield ask r converters).run s = ((none, r.advertise adverts), u) := by
  induction converters generalizing r s with
  | nil => exact .inr ⟨[], s, .nil, rfl⟩
  | cons c cs ih =>
      let reply := ((ask c r).run s).1
      let t := ((ask c r).run s).2
      have hreply : (ask c r).run s = (reply, t) := rfl
      by_cases hv : ∃ v, reply.outcome = .ok (some v)
      · obtain ⟨v, hv⟩ := hv
        left
        exact ⟨v, _, t, ⟨[], c, cs, [], s, reply, rfl, .nil, hreply, hv⟩,
          firstYield_cons_yields hreply hv cs⟩
      · have hv : ∀ v, reply.outcome ≠ .ok (some v) := fun v h => hv ⟨v, h⟩
        rw [firstYield_cons_declines hreply hv]
        refine (ih (r.advertise reply.adverts) t).imp ?_ ?_
        · rintro ⟨v, adverts, u, ⟨front, d, rest, before, t', last, rfl, hfront, hlast, hd⟩, hrun⟩
          rw [ConversionRequest.advertise_append] at hlast hrun
          exact ⟨v, _, u, ⟨c :: front, d, rest, _, t', last, rfl, .cons hreply hv hfront, hlast, hd⟩,
            hrun⟩
        · rintro ⟨adverts, u, hdeclined, hrun⟩
          rw [ConversionRequest.advertise_append] at hrun
          exact ⟨_, u, .cons hreply hv hdeclined, hrun⟩

theorem firstYield_within {converters : List (Converter (StateM σ))}
    {ambient ambient' : Option (Ambient (StateM σ))} {hints hints' : Option Hints}
    (h : ∀ c ∈ converters, ∀ r : ConversionRequest (StateM σ),
      ask c (r.within ambient hints) = ask c (r.within ambient' hints'))
    (r : ConversionRequest (StateM σ)) :
    firstYield ask (r.within ambient hints) converters =
      (fun last => (last.1, last.2.within ambient hints)) <$>
        firstYield ask (r.within ambient' hints') converters := by
  induction converters generalizing r with
  | nil => rfl
  | cons c cs ih =>
      obtain ⟨hc, hcs⟩ := List.forall_mem_cons.1 h
      rw [firstYield, firstYield, hc, map_bind]
      congr
      funext reply
      -- A converter that declines adds its formats to the request, whatever surrounds it.
      cases reply.outcome with
      | error fault => exact ih hcs (r.advertise reply.adverts)
      | ok value =>
          cases value with
          | none => exact ih hcs (r.advertise reply.adverts)
          | some v => rfl

theorem lift_map_bind {α β γ : Type} (x : StateM σ α) (f : α → β)
    (next : β → ExceptT ConfigError (StateM σ) γ) :
    ExceptT.lift (f <$> x) >>= next = ExceptT.lift x >>= fun a => next (f a) := rfl

theorem convertText_within {converters : List (Converter (StateM σ))}
    {ambient ambient' : Option (Ambient (StateM σ))} {hints hints' : Option Hints} {text : String}
    (h : ∀ c ∈ converters, ∀ r : ConversionRequest (StateM σ),
      c.convert (r.within ambient hints) text = c.convert (r.within ambient' hints') text)
    (r : ConversionRequest (StateM σ)) :
    convertText text (r.within ambient hints) converters =
      convertText text (r.within ambient' hints') converters := by
  rw [convertText, convertText, firstYield_within h, lift_map_bind]
  congr
  funext last
  obtain ⟨v, r⟩ := last
  cases v with
  | none => rfl
  | some v => rfl

theorem convertNothing_within {converters : List (Converter (StateM σ))}
    {ambient ambient' : Option (Ambient (StateM σ))} {hints hints' : Option Hints}
    (h : ∀ c ∈ converters, ∀ r : ConversionRequest (StateM σ),
      c.convertAbsent (r.within ambient hints) = c.convertAbsent (r.within ambient' hints'))
    (r : ConversionRequest (StateM σ)) :
    convertNothing (r.within ambient hints) converters =
      convertNothing (r.within ambient' hints') converters := by
  rw [convertNothing, convertNothing, firstYield_within h, lift_map_bind]
  rfl

theorem convertText_run {text : String} {r : ConversionRequest (StateM σ)} (hr : r.formats = [])
    (converters : List (Converter (StateM σ))) (s : σ) :
    (∃ v u, FirstYields (askText text) r s converters v u ∧
      (convertText text r converters).run.run s = (.ok (some (.value v)), u)) ∨
    ∃ adverts u, Declined (askText text) r s converters adverts u ∧
      (convertText text r converters).run.run s =
        (if r.target.wrapping = .optional then .ok none
          else .error (.conversionFailed r.key r.target.effective.display text
            (listings adverts).eraseDups), u) := by
  rcases firstYield_run (askText text) r converters s with
    ⟨v, adverts, u, hyields, hrun⟩ | ⟨adverts, u, hdeclined, hrun⟩
  · left
    refine ⟨v, u, hyields, ?_⟩
    rw [convertText]
    exact run_bind_of_ok (run_lift hrun)
  · right
    refine ⟨adverts, u, hdeclined, ?_⟩
    rw [convertText, ← ConversionRequest.formats_advertise hr]
    refine (run_bind_of_ok (run_lift hrun)).trans ?_
    by_cases hoptional : r.target.wrapping = .optional
    · have hoptional' : (r.advertise adverts).target.wrapping = .optional := hoptional
      simp only [hoptional, hoptional', if_true]
      rfl
    · have hoptional' : (r.advertise adverts).target.wrapping ≠ .optional := hoptional
      simp only [hoptional, hoptional', if_false]
      rfl

theorem convertNothing_run {r : ConversionRequest (StateM σ)} (hr : r.target.wrapping = .optional)
    (converters : List (Converter (StateM σ))) (s : σ) :
    (∃ v u, FirstYields askAbsent r s converters v u ∧
      (convertNothing r converters).run.run s = (.ok (some (.value v)), u)) ∨
    ∃ adverts u, Declined askAbsent r s converters adverts u ∧
      (convertNothing r converters).run.run s = (.ok none, u) := by
  rcases firstYield_run askAbsent r converters s with
    ⟨v, adverts, u, hyields, hrun⟩ | ⟨adverts, u, hdeclined, hrun⟩
  · left
    refine ⟨v, u, hyields, ?_⟩
    rw [convertNothing, if_pos hr]
    exact run_bind_of_ok (run_lift hrun)
  · right
    refine ⟨adverts, u, hdeclined, ?_⟩
    rw [convertNothing, if_pos hr]
    exact run_bind_of_ok (run_lift hrun)

theorem lookup_of_host {c : Configuration (StateM σ)} {h : HostConfig (StateM σ)}
    (hview : c.view.host? = some h) (key : String) (target : Descriptor) :
    c.lookup key target none = (do
      ConfigError.requireKey key
      h.typedValue key target : ExceptT ConfigError (StateM σ) _) := by
  rw [lookup, hview]
  rfl

theorem lookup_of_shown {c : Configuration (StateM σ)} {hints : Option Hints}
    (h : hints = none → c.view.host? = none) (key : String) (target : Descriptor) :
    c.lookup key target hints = (do
      ConfigError.requireKey key
      c.convertShown ((hints.bind (·.name)).getD key) target hints :
        ExceptT ConfigError (StateM σ) _) := by
  rw [lookup]
  cases hints with
  | none => rw [h rfl]
  | some hints => rfl

theorem convertAny_of_not_deferred {c : Configuration (StateM σ)} {target : Descriptor}
    (htarget : target.wrapping ≠ .deferred) (key : String) (hints : Option Hints) :
    c.convertAny key target hints = c.lookup key target hints := by
  rw [convertAny]
  cases hwrapping : target.wrapping with
  | deferred => exact absurd hwrapping htarget
  | plain => rfl
  | optional => rfl

theorem converts_congr {c n : Configuration (StateM σ)} {hints hints' : Option Hints}
    (h : ∀ key target, target.wrapping ≠ .deferred →
      n.lookup key target hints' = c.lookup key target hints) :
    (∀ key target, n.convertAny key target hints' = c.convertAny key target hints) ∧
      ∀ typeName key target,
        n.convert typeName key target hints' = c.convert typeName key target hints := by
  have hdeferred : ∀ key target, n.deferred key target hints' = c.deferred key target hints := by
    intro key target
    rw [deferred, deferred, h key target.effective nofun]
  refine ⟨fun key target => ?_, fun typeName key target => ?_⟩
  · rw [convertAny, convertAny]
    cases hwrapping : target.wrapping with
    | deferred => simp only [hdeferred]
    | plain => exact h key target (by simp [hwrapping])
    | optional => exact h key target (by simp [hwrapping])
  · rw [convert, convert]
    cases hwrapping : target.wrapping with
    | deferred => simp only [hdeferred]
    | plain => simp only [h key target (by simp [hwrapping])]
    | optional => simp only [h key target (by simp [hwrapping])]

theorem convertAny_eq {c : Configuration (StateM σ)} (hview : c.view.host? = none)
    {target : Descriptor} (htarget : target.wrapping ≠ .deferred) {key : String} (hkey : key ≠ "")
    (hints : Option Hints) :
    c.convertAny key target hints = c.convertShown ((hints.bind (·.name)).getD key) target hints := by
  rw [convertAny_of_not_deferred htarget, lookup_of_shown fun _ => hview,
    ConfigError.requireKey_ok hkey]
  rfl

/-- What is converted, given what the view shows. -/
theorem convertShown_run {c : Configuration (StateM σ)} {key : String} (hkey : key ≠ "")
    (target : Descriptor) (hints : Option Hints) {s t : σ} {found : Option PropertyValue}
    (hfound : (c.view.get key).run.run s = (.ok found, t)) :
    (c.convertShown key target hints).run.run s =
      let text := (found.bind (·.value)).or (hints.bind (·.fallback))
      let converters := c.context.converters.find target.typeName
      let request : ConversionRequest (StateM σ) := ⟨key, target, some c.ambient, hints, []⟩
      if target.isText && converters.isEmpty then (.ok (text.map fun s => .value (.text s)), t)
      else match text with
        | some text => (convertText text request converters).run.run t
        | none => (convertNothing request converters).run.run t := by
  have hvalue : (c.getValue key).run.run s = (.ok found, t) := by
    rw [getValue, ConfigError.requireKey_ok hkey]
    exact hfound
  have hget : (c.get key).run.run s = (.ok (found.bind (·.value)), t) := by
    rw [get]
    exact run_bind_of_ok hvalue
  rw [convertShown, run_bind_of_ok hget]
  dsimp only
  split
  · rfl
  · cases (found.bind (·.value)).or (hints.bind (·.fallback)) with
    | none => rfl
    | some text => rfl

/-- How a value of a plain or an optional type is found. The payload under the declared name, or
else under the key, is converted, or else the declared fallback. A text goes to the converters for
the type in the order of registration: the first value counts, and without one an optional target
lacks a value, while a plain one fails with all formats that were advertised, each once. Without a
text only the converters of an optional target are asked. If nobody converts to texts, a text stands
as it is. -/
theorem convertAny_consults {c : Configuration (StateM σ)} (hview : c.view.host? = none)
    {registered : List (Converter (StateM σ))}
    (hregistered : c.context.converters = .ofList registered)
    {target : Descriptor} (htarget : target.wrapping ≠ .deferred) {hints : Option Hints}
    {key : String} (hkey : key ≠ "") (hname : (hints.bind (·.name)).getD key ≠ "")
    {s t : σ} {found : Option PropertyValue}
    (hfound : (c.view.get ((hints.bind (·.name)).getD key)).run.run s = (.ok found, t)) :
    let text := (found.bind (·.value)).or (hints.bind (·.fallback))
    let converters := registered.filter (·.target = target.typeName)
    let request : ConversionRequest (StateM σ) :=
      ⟨(hints.bind (·.name)).getD key, target, some c.ambient, hints, []⟩
    let run := (c.convertAny key target hints).run.run s
    (target.typeName = "String" → converters = [] →
      run = (.ok (text.map fun s => .value (.text s)), t)) ∧
    ((target.typeName = "String" → converters ≠ []) →
      (∀ source, text = some source →
        (∃ v u, FirstYields (askText source) request t converters v u ∧
          run = (.ok (some (.value v)), u)) ∨
        ∃ adverts u, Declined (askText source) request t converters adverts u ∧
          run = (if target.wrapping = .optional then .ok none
            else .error (.conversionFailed ((hints.bind (·.name)).getD key)
              target.effective.display source (listings adverts).eraseDups), u)) ∧
      (text = none → target.wrapping = .plain → run = (.ok none, t)) ∧
      (text = none → target.wrapping = .optional →
        (∃ v u, FirstYields askAbsent request t converters v u ∧
          run = (.ok (some (.value v)), u)) ∨
        ∃ adverts u, Declined askAbsent request t converters adverts u ∧ run = (.ok none, u))) := by
  intro text converters request run
  have hfind : c.context.converters.find target.typeName = converters := by
    rw [hregistered, ConverterTable.find_ofList]
    rfl
  have hrun : run =
      if target.isText && converters.isEmpty then (.ok (text.map fun s => .value (.text s)), t)
      else match text with
        | some text => (convertText text request converters).run.run t
        | none => (convertNothing request converters).run.run t := by
    rw [← hfind]
    change (c.convertAny key target hints).run.run s = _
    rw [convertAny_eq hview htarget hkey]
    exact convertShown_run hname target hints hfound
  refine ⟨?_, ?_⟩
  · intro hstring hnone
    have hcond : (target.isText && converters.isEmpty) = true := by
      simp [Descriptor.isText, Descriptor.describes, hstring, hnone]
    rw [hcond, if_pos rfl] at hrun
    exact hrun
  · intro hsome
    have hcond : (target.isText && converters.isEmpty) = false := by
      simpa [Descriptor.isText, Descriptor.describes] using hsome
    rw [hcond, if_neg Bool.false_ne_true] at hrun
    refine ⟨?_, ?_, ?_⟩
    · intro source hsource
      rw [hsource] at hrun
      rw [hrun]
      exact convertText_run rfl converters t
    · intro hnone hplain
      rw [hnone] at hrun
      have hnot : request.target.wrapping ≠ .optional := by
        change target.wrapping ≠ .optional
        rw [hplain]
        decide
      rw [hrun, convertNothing, if_neg hnot]
      rfl
    · intro hnone hoptional
      rw [hnone] at hrun
      rw [hrun]
      exact convertNothing_run hoptional converters t

end Configuration

namespace Sample

/-- Two converters for numbers, one that fails and one that declines, and one for texts. -/
def numerals : List (Converter Act) :=
  [ruled 1 (.integer .u32) "Roman" ["<roman>", "<any>"] (.fail "boom"),
    ruled 2 .text "Plain" ["<text>"] .parse,
    ruled 3 (.integer .u32) "Roman" ["<any>", "<word>"] .decline]

def tally : Configuration Act :=
  .ofContext 4 ⟨4, [(MemoryProvider.mk 0 "notes" 0 true false none).toProvider], [],
    .ofList numerals⟩

theorem declines_numerals {text : String} {r : ConversionRequest Act} {w u : World} {v : Value} :
    ¬ FirstYields (askText text) r w (numerals.filter (·.target = "u32")) v u := by
  rintro ⟨front, c, rest, adverts, t, reply, hsplit, -, hreply, hv⟩
  have hc : c ∈ numerals.filter (·.target = "u32") :=
    hsplit ▸ List.mem_append_right front List.mem_cons_self
  have hcases : c = ruled 1 (.integer .u32) "Roman" ["<roman>", "<any>"] (.fail "boom") ∨
      c = ruled 3 (.integer .u32) "Roman" ["<any>", "<word>"] .decline := by
    simpa [numerals, ruled, Converter.make, Product.typeName, IntegerKind.name] using hc
  rcases hcases with rfl | rfl
  · cases hreply
    cases hv
  · cases hreply
    cases hv

/-- The declared name is looked up; what both converters understand is listed once. -/
theorem tally_fails :
    let w := (World.initial "/").setMemory 0 (.ofList [("count", some "many")])
    (tally.convertAny "n" (.plain "u32") (some ⟨some "0", some "count", .empty⟩)).run.run w =
      (.error (.conversionFailed "count" "u32" "many"
        ["<roman> (Roman)", "<any> (Roman)", "<word> (Roman)"]), w) := by
  intro w
  obtain ⟨-, hconverted⟩ := @Configuration.convertAny_consults _ tally rfl numerals rfl
    (.plain "u32") (by decide) (some ⟨some "0", some "count", .empty⟩) "n" (by decide) (by decide)
    w w (some ⟨"count", some "many", "notes", .empty⟩) rfl
  obtain ⟨htext, -⟩ := hconverted (by decide)
  rcases htext "many" rfl with ⟨v, u, hyields, -⟩ | ⟨adverts, u, hdeclined, hrun⟩
  · exact absurd hyields declines_numerals
  · cases hdeclined with
    | cons hfirst _ hrest =>
        cases hfirst
        cases hrest with
        | cons hsecond _ hnone =>
            cases hsecond
            cases hnone
            exact hrun

end Sample

end LayeredConfig
