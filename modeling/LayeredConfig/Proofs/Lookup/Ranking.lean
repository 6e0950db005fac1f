import LayeredConfig.Environment
import LayeredConfig.Proofs.Context.Order
import LayeredConfig.Proofs.Literal.Integer
import LayeredConfig.Proofs.Provider.Steady
import LayeredConfig.Sample.Filter

/-!
The order of providers. A configuration ranks its providers once, when it is built; from then on
the first one that has a value answers, in whatever order the providers were registered.
-/

namespace LayeredConfig

variable {σ : Type}

namespace Provider

/-- A provider declares an ordinal: a number of 32 bits, with blanks around it, is its payload under
the key of ordinals. -/
def Declares (p : Provider (StateM σ)) (s : σ) (n : Int) : Prop :=
  ∃ v text, p.answer ordinalKey s = .ok (some v) ∧ v.value = some text ∧
    Literal.Numeral 10 True (Text.trim text.toList) n ∧
    IntegerKind.i32.lo ≤ n ∧ n ≤ IntegerKind.i32.hi

/-- The ordinal of a provider in a state. -/
inductive HasOrdinal (p : Provider (StateM σ)) (s : σ) : Int → Prop
  | declared {n} : p.Declares s n → HasOrdinal p s n
  | default : (∀ n, ¬ p.Declares s n) → HasOrdinal p s (outcome p.defaultOrdinal s)

/-- A provider stands before another: by descending ordinal, then by ascending name. -/
def Outranks (s : σ) (p q : Provider (StateM σ)) : Prop :=
  ∃ m n, p.HasOrdinal s m ∧ q.HasOrdinal s n ∧ (n < m ∨ m = n ∧ p.name < q.name)

/-- A provider has a value under a key in a state, and stands before all others that have one,
by their ordinals in the state `s₀`. -/
structure Wins (ps : List (Provider (StateM σ))) (s₀ : σ) (key : String) (s : σ)
    (p : Provider (StateM σ)) (v : PropertyValue) : Prop where
  mem : p ∈ ps
  answer : p.answer key s = .ok (some v)
  first : ∀ q ∈ ps, q.name ≠ p.name → ∀ w, q.answer key s = .ok (some w) → p.Outranks s₀ q

theorem declaredOrdinal?_eq_some_iff {text : String} {n : Int} :
    declaredOrdinal? text = some n ↔ Literal.Numeral 10 True (Text.trim text.toList) n ∧
      IntegerKind.i32.lo ≤ n ∧ n ≤ IntegerKind.i32.hi := by
  have hlo : IntegerKind.i32.lo < 0 := by decide
  have hhi : 0 ≤ IntegerKind.i32.hi := by decide
  have hread : Literal.readInteger 10 _ _ (Text.trim text.toList) = .ok n ↔ _ :=
    Literal.readInteger_eq_ok_iff (Int.le_of_lt hlo) hhi
  rw [eq_true hlo] at hread
  rw [← hread, declaredOrdinal?]
  cases Literal.readInteger 10 IntegerKind.i32.lo IntegerKind.i32.hi (Text.trim text.toList) with
  | error e => simp [Except.toOption]
  | ok n' => simp [Except.toOption]

def declared? (p : Provider (StateM σ)) (s : σ) : Option Int :=
  ((p.answer? ordinalKey s).bind (·.value)).bind declaredOrdinal?

theorem declares_iff {p : Provider (StateM σ)} {s : σ} {n : Int} :
    p.Declares s n ↔ p.declared? s = some n := by
  simp only [Declares, declared?, Option.bind_eq_some_iff, answer?_eq_some_iff,
    declaredOrdinal?_eq_some_iff]
  constructor
  · rintro ⟨v, text, hanswer, hvalue, hn⟩
    exact ⟨text, ⟨v, hanswer, hvalue⟩, hn⟩
  · rintro ⟨text, ⟨v, hanswer, hvalue⟩, hn⟩
    exact ⟨v, text, hanswer, hvalue, hn⟩

theorem hasOrdinal_iff_declared? {p : Provider (StateM σ)} {s : σ} {n : Int} :
    p.HasOrdinal s n ↔ (p.declared? s).getD (outcome p.defaultOrdinal s) = n := by
  constructor
  · intro h
    cases h with
    | declared h => rw [declares_iff.1 h, Option.getD_some]
    | default h =>
        have hnone : p.declared? s = none :=
          Option.eq_none_iff_forall_ne_some.2 fun n hn => h n (declares_iff.2 hn)
        rw [hnone, Option.getD_none]
  · rintro rfl
    cases h : p.declared? s with
    | none =>
        refine .default fun n hn => ?_
        rw [declares_iff, h] at hn
        cases hn
    | some n => exact .declared (declares_iff.2 h)

theorem ordinal_eq (p : Provider (StateM σ)) :
    p.ordinal = (p.get ordinalKey).run >>= fun answer =>
      ((answer.toOption.join.bind (·.value)).bind declaredOrdinal?).elim p.defaultOrdinal pure := by
  rw [ordinal]
  congr
  funext answer
  cases answer with
  | error e => rfl
  | ok v =>
      cases v with
      | none => rfl
      | some v =>
          change _ = (v.value.bind declaredOrdinal?).elim _ _
          dsimp only
          cases v.value.bind declaredOrdinal? with
          | none => rfl
          | some n => rfl

section
variable [Setoid σ]

theorem Steady.ordinal {p : Provider (StateM σ)} (h : p.Steady) :
    LayeredConfig.Steady p.ordinal := by
  rw [ordinal_eq]
  exact (h.get ordinalKey).bind fun _ => h.defaultOrdinal.elim (fun _ => .pure _) _

theorem Steady.hasOrdinal_iff {p : Provider (StateM σ)} (h : p.Steady) {s : σ} {n : Int} :
    p.HasOrdinal s n ↔ outcome p.ordinal s = n := by
  rw [hasOrdinal_iff_declared?, ordinal_eq, (h.get ordinalKey).outcome_bind fun _ =>
    h.defaultOrdinal.elim (fun _ => .pure _) _]
  change _ ↔ outcome ((p.declared? s).elim _ _) s = n
  cases p.declared? s with
  | none => exact Iff.rfl
  | some n' => exact Iff.rfl

theorem Steady.outranks_iff {p q : Provider (StateM σ)} (hp : p.Steady) (hq : q.Steady) {s : σ} :
    p.Outranks s q ↔ outcome q.ordinal s < outcome p.ordinal s ∨
      outcome p.ordinal s = outcome q.ordinal s ∧ p.name < q.name := by
  simp only [Outranks, hp.hasOrdinal_iff, hq.hasOrdinal_iff]
  constructor
  · rintro ⟨m, n, rfl, rfl, h⟩
    exact h
  · intro h
    exact ⟨_, _, rfl, rfl, h⟩

end

end Provider

namespace Context

variable [Setoid σ]

theorem steady_rank {ps : List (Provider (StateM σ))} (h : ∀ p ∈ ps, p.Steady) :
    Steady (rank ps) := by
  induction ps with
  | nil => exact .pure []
  | cons p ps ih =>
      have hps : Steady (rank ps) := ih fun q hq => h q (List.mem_cons_of_mem p hq)
      exact (h p List.mem_cons_self).ordinal.bind fun _ => hps.bind fun _ => .pure _

theorem steady_sort {ps : List (Provider (StateM σ))} (h : ∀ p ∈ ps, p.Steady) :
    Steady (sort ps) := (steady_rank h).bind fun _ => .pure _

theorem outcome_sort {ps : List (Provider (StateM σ))} (h : ∀ p ∈ ps, p.Steady) (s : σ) :
    outcome (sort ps) s = arrange (fun p => outcome p.ordinal s) ps :=
  (gives_sort fun p hp => .of_steady (h p hp).ordinal s).outcome_eq

theorem sort_pairwise {ps : List (Provider (StateM σ))} (h : ∀ p ∈ ps, p.Steady)
    (hdistinct : (ps.map (·.name)).Nodup) (s : σ) :
    (outcome (sort ps) s).Pairwise (Provider.Outranks s) := by
  have hmem : ∀ p ∈ outcome (sort ps) s, p.Steady :=
    fun p hp => h p ((outcome_sort_perm ps s).mem_iff.1 hp)
  rw [outcome_sort h] at hmem ⊢
  refine (arrange_pairwise _ hdistinct).imp_of_mem ?_
  intro p q hp hq hpq
  exact ((hmem p hp).outranks_iff (hmem q hq)).2 hpq

theorem sort_eq_of_perm {ps qs : List (Provider (StateM σ))} (h : ∀ p ∈ ps, p.Steady)
    (hdistinct : (ps.map (·.name)).Nodup) (hperm : qs.Perm ps) (s : σ) :
    outcome (sort qs) s = outcome (sort ps) s := by
  have hqs : ∀ q ∈ qs, q.Steady := fun q hq => h q (hperm.mem_iff.1 hq)
  rw [outcome_sort hqs, outcome_sort h, arrange_eq_of_perm _ hdistinct hperm]

/-- In the effective order, the first value is the winner's. -/
theorem wins_of_findSome? {ps : List (Provider (StateM σ))} (h : ∀ p ∈ ps, p.Steady)
    (hdistinct : (ps.map (·.name)).Nodup) {s₀ s : σ} {key : String} {v : PropertyValue}
    (hfirst : (outcome (sort ps) s₀).findSome? (·.answer? key s) = some v) :
    ∃ p, Provider.Wins ps s₀ key s p v := by
  obtain ⟨front, p, rest, hsplit, hp, hfront⟩ := List.findSome?_eq_some_iff.1 hfirst
  have hpairwise := sort_pairwise h hdistinct s₀
  have hmem : ∀ q, q ∈ ps ↔ q ∈ front ++ p :: rest := by
    intro q
    rw [← hsplit]
    exact (outcome_sort_perm ps s₀).mem_iff.symm
  rw [hsplit, List.pairwise_append, List.pairwise_cons] at hpairwise
  refine ⟨p, (hmem p).2 (by simp), Provider.answer?_eq_some_iff.1 hp, ?_⟩
  intro q hq hname w hw
  have hw' : q.answer? key s = some w := Provider.answer?_eq_some_iff.2 hw
  rcases List.mem_append.1 ((hmem q).1 hq) with hq | hq
  · rw [hfront q hq] at hw'
    cases hw'
  · rcases List.mem_cons.1 hq with rfl | hq
    · exact absurd rfl hname
    · exact hpairwise.2.1.1 q hq

end Context

theorem Configuration.getValue_run (tag : Tag) (c : Context (StateM σ)) {key : String}
    (hkey : key ≠ "") (s : σ) :
    ((ofContext tag c).getValue key).run.run s = (Except.ok <$> c.resolve key).run s := by
  rw [getValue, ConfigError.requireKey_ok hkey]
  rfl

theorem Context.resolve_run [Setoid σ] {c : Context (StateM σ)} (h : ∀ p ∈ c.providers, p.Steady)
    (key : String) (s : σ) :
    ∃ t, t ≈ s ∧ (c.resolve key).run s =
      match c.providers.findSome? (·.answer? key s) with
      | some v => (c.filters.foldlM (fun v (f : Filter (StateM σ)) =>
          OptionT.mk (f.apply ⟨key, c.getRaw, none⟩ v)) v).run.run t
      | none => (none, t) := by
  have hraw : outcome (c.getRaw key) s = c.providers.findSome? (·.answer? key s) :=
    outcome_firstAnswer key h s
  refine ⟨after (c.getRaw key) s, (steady_firstAnswer key h).after_alike s, ?_⟩
  rw [resolve, run_bind, hraw]
  cases c.providers.findSome? (·.answer? key s) with
  | none => rfl
  | some v => exact congrArg (StateT.run · _) (Filter.chain_eq_foldlM _ c.filters v)

theorem Builder.build_run {b : Builder (StateM σ)} (tag : Tag) (s : σ)
    (hnames : ∀ p ∈ b.providers, p.name ≠ "") (hdistinct : (b.providers.map (·.name)).Nodup) :
    (b.build tag).run.run s =
      (.ok (.ofContext tag ⟨tag, outcome (Context.sort b.providers) s, b.filters,
        .ofList b.converters⟩), after (Context.sort b.providers) s) := by
  have hrun := Context.build_run tag b.filters b.converters ⟨hnames, hdistinct⟩ s
  exact run_bind_of_ok hrun

/-- A configuration answers every key by rank, in every state `s`: the winner's value passes the
filters from left to right until one hides it; without a winner there is no value. -/
def Builder.AnswersByRank [Setoid σ] (b : Builder (StateM σ)) (s₀ : σ)
    (c : Configuration (StateM σ)) : Prop :=
  ∀ key, key ≠ "" → ∀ s, ∃ t, t ≈ s ∧
    ((∃ p v, Provider.Wins b.providers s₀ key s p v ∧
        (c.getValue key).run.run s = (Except.ok <$> (b.filters.foldlM
          (fun v (f : Filter (StateM σ)) =>
            OptionT.mk (f.apply ⟨key, c.context.getRaw, none⟩ v)) v).run).run t) ∨
      (∀ p ∈ b.providers, ∀ v, p.answer key s ≠ .ok (some v)) ∧
        (c.getValue key).run.run s = (.ok none, t))

/-- A builder whose providers have different names builds one configuration, in whatever order the
providers stand, and this configuration answers by the ordinals of the time of building. -/
theorem Builder.build_answersByRank [Setoid σ] (b : Builder (StateM σ)) (tag : Tag) (s₀ : σ)
    (hnames : ∀ p ∈ b.providers, p.name ≠ "") (hdistinct : (b.providers.map (·.name)).Nodup)
    (hsteady : ∀ p ∈ b.providers, p.Steady) :
    ∃ c, b.AnswersByRank s₀ c ∧ ∀ ps, ps.Perm b.providers → ∃ s₁, s₁ ≈ s₀ ∧
      (({ b with providers := ps } : Builder (StateM σ)).build tag).run.run s₀ = (.ok c, s₁) := by
  let c : Context (StateM σ) :=
    ⟨tag, outcome (Context.sort b.providers) s₀, b.filters, .ofList b.converters⟩
  have hperm : c.providers.Perm b.providers := Context.outcome_sort_perm b.providers s₀
  refine ⟨.ofContext tag c, ?_, ?_⟩
  · intro key hkey s
    obtain ⟨t, ht, hrun⟩ :=
      Context.resolve_run (fun p hp => hsteady p (hperm.mem_iff.1 hp)) key s
    refine ⟨t, ht, ?_⟩
    rw [Configuration.getValue_run tag c hkey, StateT.run_map, hrun]
    cases hfirst : c.providers.findSome? (·.answer? key s) with
    | none =>
        right
        refine ⟨?_, rfl⟩
        intro p hp v hv
        have hnone := List.findSome?_eq_none_iff.1 hfirst p (hperm.mem_iff.2 hp)
        rw [Provider.answer?_eq_some_iff.2 hv] at hnone
        cases hnone
    | some v =>
        left
        obtain ⟨p, hp⟩ := Context.wins_of_findSome? hsteady hdistinct hfirst
        exact ⟨p, v, hp, rfl⟩
  · intro ps hps
    have hsteady' : ∀ p ∈ ps, p.Steady := fun p hp => hsteady p (hps.mem_iff.1 hp)
    refine ⟨after (Context.sort ps) s₀, (Context.steady_sort hsteady').after_alike s₀, ?_⟩
    rw [build_run tag s₀ (fun p hp => hnames p (hps.mem_iff.1 hp))
      ((hps.map _).nodup_iff.2 hdistinct), Context.sort_eq_of_perm hsteady hdistinct hps]

namespace Sample

def down : Provider Act := failing 3 "down" 300 .backend

def overrides : Provider Act := (MemoryProvider.mk 1 "overrides" 100 true true none).toProvider

def defaults : Provider Act := (MemoryProvider.mk 0 "defaults" 0 true true none).toProvider

def settings : FileProvider := ⟨2, "settings", "settings.properties", 0, false, .flat⟩

/-- A builder with a failing provider, two that read memory, and one that keeps what it has read. -/
def layered : Builder Act where
  providers := [down, overrides, defaults, settings.toProvider]
  filters := [upper]
  converters := []
  environment := .empty "none"

/-- Both memory providers have a value under a key; the one with the lower default ordinal declares
a higher one. -/
def contents : World :=
  ((World.initial "/").setMemory 0 (.ofList [(ordinalKey, some " 200 "), ("key", none)])).setMemory
    1 (.ofList [("key", some "text")])

theorem steady_layered :
    letI := World.alike fun _ files _ => settings.read files
    ∀ p ∈ layered.providers, p.Steady := by
  let := World.alike fun _ files _ => settings.read files
  intro p hp
  simp only [layered, List.mem_cons, List.not_mem_nil, or_false] at hp
  rcases hp with rfl | rfl | rfl | rfl
  · exact (steady_failing 3 "down" 300 .backend).1
  · exact (MemoryProvider.steady _ _).1
  · exact (MemoryProvider.steady _ _).1
  · exact (settings.steady fun _ _ => rfl).1

/-- The declared ordinal counts: the absent payload shadows the text of the other provider. -/
theorem layered_getValue :
    ∃ c, (∃ w, (layered.build 4).run.run contents = (.ok c, w)) ∧
      outcome (c.getValue "key").run contents = .ok (some ⟨"key", none, "defaults", .empty⟩) := by
  let := World.alike fun _ files _ => settings.read files
  have hdefaults : defaults ∈ layered.providers := .tail _ (.tail _ (.head _))
  obtain ⟨c, hanswers, hbuild⟩ :=
    Builder.build_answersByRank layered 4 contents (by decide) (by decide) steady_layered
  obtain ⟨w, -, hw⟩ := hbuild layered.providers (.refl _)
  refine ⟨c, ⟨w, hw⟩, ?_⟩
  obtain ⟨t, -, ⟨p, v, hwins, hrun⟩ | ⟨hnone, -⟩⟩ := hanswers "key" (by decide) contents
  · have hanswer := hwins.answer
    have hp := hwins.mem
    simp only [layered, List.mem_cons, List.not_mem_nil, or_false] at hp
    rcases hp with rfl | rfl | rfl | rfl
    · cases hanswer
    · have hrank := hwins.first defaults hdefaults (by decide) _ rfl
      rw [Provider.Steady.outranks_iff (steady_layered _ hwins.mem)
        (steady_layered _ hdefaults)] at hrank
      change (200 : Int) < 100 ∨ (100 : Int) = 200 ∧ _ at hrank
      omega
    · cases hanswer
      rw [outcome, hrun]
      rfl
    · cases hanswer
  · exact absurd rfl (hnone defaults hdefaults _)

end Sample

end LayeredConfig
