import LayeredConfig.Proofs.Context.Order
import LayeredConfig.Proofs.Context.Table
import LayeredConfig.Proofs.Lookup.Ranking
import LayeredConfig.Sample.Converter
import Mathlib.Data.List.Nodup

/-!
The laws of combining contexts. Which providers stand in a combination is settled by their names,
and where they stand by their ordinals, so neither depends on how the combination is bracketed.
-/

namespace LayeredConfig

namespace Context

variable {m : Type → Type} {σ : Type}

theorem names_replace (p : Provider m) (l : List (Provider m)) :
    (replace p l).map (·.name) = l.map (·.name) := by
  rw [replace, List.map_map]
  refine List.map_congr_left fun q _ => ?_
  by_cases h : q.name = p.name
  · simp [h]
  · simp [h]

theorem mem_replace {p q : Provider m} {l : List (Provider m)} (h : p.name ∈ l.map (·.name)) :
    q ∈ replace p l ↔ q = p ∨ q ∈ l ∧ q.name ≠ p.name := by
  rw [replace, List.mem_map]
  constructor
  · rintro ⟨r, hr, rfl⟩
    by_cases hname : r.name = p.name
    · exact .inl (if_pos hname)
    · rw [if_neg hname]
      exact .inr ⟨hr, hname⟩
  · rintro (rfl | ⟨hq, hname⟩)
    · obtain ⟨r, hr, hname⟩ := List.mem_map.1 h
      exact ⟨r, hr, if_pos hname⟩
    · exact ⟨q, hq, if_neg hname⟩

/-- One more provider, where the names say whether there is already one. -/
def settle (policy : MergePolicy) (l : List (Provider m)) (p : Provider m) : List (Provider m) :=
  if p.name ∈ l.map (·.name) then
    match policy with
    | .override => replace p l
    | .keepExisting => l
  else l ++ [p]

theorem unite_eq_foldl (policy : MergePolicy) (a b : List (Provider m)) :
    unite policy a b = b.foldl (settle policy) a := by
  rw [unite]
  congr
  funext l p
  have hany : (l.any fun q => decide (q.name = p.name)) = true ↔ p.name ∈ l.map (·.name) := by
    simp
  unfold settle
  simp only [hany]
  cases policy with
  | override => rfl
  | keepExisting => rfl

theorem mem_names_settle {policy : MergePolicy} {l : List (Provider m)} {p : Provider m}
    {n : String} : n ∈ (settle policy l p).map (·.name) ↔ n ∈ l.map (·.name) ∨ n = p.name := by
  unfold settle
  split
  · rename_i h
    have hsame : n = p.name → n ∈ l.map (·.name) := fun hn => hn ▸ h
    cases policy with
    | override => rw [names_replace, or_iff_left_of_imp hsame]
    | keepExisting => rw [or_iff_left_of_imp hsame]
  · rw [List.map_append, List.mem_append, List.map_singleton, List.mem_singleton]

theorem named_settle (policy : MergePolicy) {l : List (Provider m)} {p : Provider m}
    (hl : Named l) (hp : p.name ≠ "") : Named (settle policy l p) := by
  refine ⟨?_, ?_⟩
  · intro q hq
    rcases mem_names_settle.1 (List.mem_map_of_mem hq) with hname | hname
    · obtain ⟨r, hr, hrq⟩ := List.mem_map.1 hname
      exact hrq ▸ hl.nonempty r hr
    · exact hname ▸ hp
  · unfold settle
    split
    · cases policy with
      | override => rw [names_replace]; exact hl.distinct
      | keepExisting => exact hl.distinct
    · rename_i hnew
      rw [List.map_append, List.map_singleton]
      exact List.nodup_append.2 ⟨hl.distinct, List.pairwise_singleton _ _,
        fun _ hn _ hp heq => hnew (List.mem_singleton.1 hp ▸ heq ▸ hn)⟩

theorem mem_names_unite {policy : MergePolicy} {a b : List (Provider m)} {n : String} :
    n ∈ (unite policy a b).map (·.name) ↔ n ∈ a.map (·.name) ∨ n ∈ b.map (·.name) := by
  rw [unite_eq_foldl]
  induction b generalizing a with
  | nil => simp
  | cons p b ih =>
      rw [List.foldl_cons, ih, mem_names_settle, List.map_cons, List.mem_cons, or_assoc]

theorem Named.unite (policy : MergePolicy) {a b : List (Provider m)} (ha : Named a)
    (hb : Named b) : Named (unite policy a b) := by
  rw [unite_eq_foldl]
  replace hb := hb.nonempty
  induction b generalizing a with
  | nil => exact ha
  | cons p b ih =>
      obtain ⟨hp, hb⟩ := List.forall_mem_cons.1 hb
      exact ih (named_settle policy ha hp) hb

/-- Existing providers stay, and the other ones come where the names are new. -/
theorem mem_unite_keepExisting {a b : List (Provider m)} (hb : Named b) {q : Provider m} :
    q ∈ unite .keepExisting a b ↔ q ∈ a ∨ q ∈ b ∧ q.name ∉ a.map (·.name) := by
  rw [unite_eq_foldl]
  replace hb := hb.distinct
  induction b generalizing a with
  | nil => simp
  | cons p b ih =>
      obtain ⟨hp, hb⟩ := List.nodup_cons.1 hb
      have hfresh : q ∈ b → q.name ≠ p.name := fun hq hname =>
        hp (List.mem_map.2 ⟨q, hq, hname⟩)
      have hstep : q ∈ settle .keepExisting a p ↔ q ∈ a ∨ q = p ∧ p.name ∉ a.map (·.name) := by
        unfold settle
        split
        · rename_i h
          simp [h]
        · rename_i h
          simp [h]
      rw [List.foldl_cons]
      refine (ih hb).trans ?_
      rw [hstep, mem_names_settle, List.mem_cons]
      by_cases hqp : q = p
      · subst hqp
        grind
      · grind

/-- The other providers come, and the existing ones stay where no other one has the name. -/
theorem mem_unite_override {a b : List (Provider m)} (hb : Named b) {q : Provider m} :
    q ∈ unite .override a b ↔ q ∈ b ∨ q ∈ a ∧ q.name ∉ b.map (·.name) := by
  rw [unite_eq_foldl]
  replace hb := hb.distinct
  induction b generalizing a with
  | nil => simp
  | cons p b ih =>
      obtain ⟨hp, hb⟩ := List.nodup_cons.1 hb
      have hstep : q ∈ settle .override a p ↔ q = p ∨ q ∈ a ∧ q.name ≠ p.name := by
        unfold settle
        split
        · rename_i h
          exact mem_replace h
        · rename_i h
          have hne : q ∈ a → q.name ≠ p.name := fun hq hname =>
            h (List.mem_map.2 ⟨q, hq, hname⟩)
          rw [List.mem_append, List.mem_singleton]
          grind
      rw [List.foldl_cons]
      refine (ih hb).trans ?_
      rw [hstep, List.mem_cons, List.map_cons, List.mem_cons]
      by_cases hqp : q = p
      · subst hqp
        grind
      · grind

theorem perm_of_mem_iff {ps qs : List (Provider m)} (hps : Named ps) (hqs : Named qs)
    (h : ∀ p, p ∈ ps ↔ p ∈ qs) : ps.Perm qs :=
  (List.perm_ext_iff_of_nodup (List.Nodup.of_map _ hps.distinct)
    (List.Nodup.of_map _ hqs.distinct)).2 h

theorem unite_assoc_perm (policy : MergePolicy) {a b c ab bc : List (Provider m)} (ha : Named a)
    (hb : Named b) (hc : Named c) (hab : ab.Perm (unite policy a b))
    (hbc : bc.Perm (unite policy b c)) : (unite policy ab c).Perm (unite policy a bc) := by
  have hnab : Named ab := (ha.unite policy hb).perm hab
  have hnbc : Named bc := (hb.unite policy hc).perm hbc
  refine perm_of_mem_iff (hnab.unite policy hc) (ha.unite policy hnbc) fun q => ?_
  have hnames_ab : q.name ∈ ab.map (·.name) ↔ _ :=
    ((hab.map _).mem_iff).trans mem_names_unite
  have hnames_bc : q.name ∈ bc.map (·.name) ↔ _ :=
    ((hbc.map _).mem_iff).trans mem_names_unite
  cases policy with
  | override =>
      rw [mem_unite_override hc, mem_unite_override hnbc, hab.mem_iff, hbc.mem_iff,
        mem_unite_override hb, mem_unite_override hc, hnames_bc]
      grind
  | keepExisting =>
      rw [mem_unite_keepExisting hc, mem_unite_keepExisting hnbc, hab.mem_iff, hbc.mem_iff,
        mem_unite_keepExisting hb, mem_unite_keepExisting hc, hnames_ab]
      grind

theorem unite_empty_perm (policy : MergePolicy) {a : List (Provider m)} (ha : Named a) :
    (unite policy [] a).Perm a := by
  have hnone : Named ([] : List (Provider m)) := ⟨nofun, .nil⟩
  refine perm_of_mem_iff (hnone.unite policy ha) ha fun q => ?_
  cases policy with
  | override => rw [mem_unite_override ha]; simp
  | keepExisting => rw [mem_unite_keepExisting ha]; simp

theorem unite_dual_perm {a b : List (Provider m)} (ha : Named a) (hb : Named b) :
    (unite .override b a).Perm (unite .keepExisting a b) := by
  refine perm_of_mem_iff (hb.unite _ ha) (ha.unite _ hb) fun q => ?_
  rw [mem_unite_override ha, mem_unite_keepExisting hb]

/-- The converters of two tables, those that win before the other ones. -/
def mergeTables (policy : MergePolicy) (a b : ConverterTable m) : List (Converter m) :=
  match policy with
  | .override => ConverterTable.merge b a
  | .keepExisting => ConverterTable.merge a b

/-- A context is built, in a state alike to `s`, and the ordinals of its providers stay what they
are. -/
def Built [Setoid σ] (s : σ) (c : Context (StateM σ)) : Prop :=
  ∃ tag, ∃ ps : List (Provider (StateM σ)), ∃ fs cs, (∀ p ∈ ps, ∃ n, Gives p.ordinal s n) ∧
    ∃ t u, t ≈ s ∧ (build tag ps fs cs).run.run t = (.ok c, u)

/-- What is known of a built context. -/
structure Arranged [Setoid σ] (s : σ) (c : Context (StateM σ)) : Prop where
  named : Named c.providers
  ordinal : ∀ p ∈ c.providers, Gives p.ordinal s (outcome p.ordinal s)
  sorted : arrange (fun p => outcome p.ordinal s) c.providers = c.providers
  registered : ∃ cs, c.converters = .ofList cs

/-- The combination of two contexts, when the providers have their ordinals of the state `s`. -/
def combined (s : σ) (tag : Tag) (policy : MergePolicy) (a b : Context (StateM σ)) :
    Context (StateM σ) :=
  ⟨tag, arrange (fun p => outcome p.ordinal s) (unite policy a.providers b.providers),
    a.filters ++ b.filters, .ofList (mergeTables policy a.converters b.converters)⟩

theorem combine_eq_build (tag : Tag) (policy : MergePolicy) (a b : Context (StateM σ)) :
    combine tag policy a b = build tag (unite policy a.providers b.providers)
      (a.filters ++ b.filters) (mergeTables policy a.converters b.converters) := by
  cases policy with
  | override => rfl
  | keepExisting => rfl

theorem combine_ok (tag : Tag) (policy : MergePolicy) {a b : Context (StateM σ)}
    (ha : Named a.providers) (hb : Named b.providers) (s : σ) :
    ∃ c t, (combine tag policy a b).run.run s = (.ok c, t) ∧ Named c.providers := by
  have hnamed := ha.unite policy hb
  rw [combine_eq_build, build_run tag _ _ hnamed]
  exact ⟨_, _, rfl, hnamed.perm (outcome_sort_perm _ s)⟩

section
variable [Setoid σ] {s : σ} {a b c : Context (StateM σ)}

theorem Built.arranged (h : Built s c) : Arranged s c := by
  obtain ⟨tag, ps, fs, cs, hfixed, t, u, ht, hrun⟩ := h
  have hordinal : ∀ p ∈ ps, Gives p.ordinal s (outcome p.ordinal s) := by
    intro p hp
    obtain ⟨n, hn⟩ := hfixed p hp
    exact hn.outcome_eq.symm ▸ hn
  have hnamed : Named ps := by
    cases hcheck : checkNames [] ps with
    | error e =>
        rw [build, hcheck] at hrun
        cases hrun
    | ok _ => exact (checkNames_eq_ok_iff.1 hcheck).1
  obtain ⟨v, -, hbuild⟩ := gives_build tag fs cs hnamed hordinal t ht
  rw [hbuild] at hrun
  cases hrun
  have hperm := arrange_perm (fun p => outcome p.ordinal s) ps
  exact ⟨hnamed.perm hperm, fun p hp => hordinal p (hperm.mem_iff.1 hp),
    arrange_arrange _ hnamed.distinct, cs, rfl⟩

theorem ordinal_unite (policy : MergePolicy) (ha : Arranged s a) (hb : Arranged s b) :
    ∀ p ∈ unite policy a.providers b.providers,
      Gives p.ordinal s (outcome p.ordinal s) := by
  intro p hp
  have hmem : p ∈ a.providers ∨ p ∈ b.providers := by
    cases policy with
    | override =>
        rw [mem_unite_override hb.named] at hp
        grind
    | keepExisting =>
        rw [mem_unite_keepExisting hb.named] at hp
        grind
  rcases hmem with hp | hp
  · exact ha.ordinal p hp
  · exact hb.ordinal p hp

theorem Arranged.gives_combine (tag : Tag) (policy : MergePolicy) (ha : Arranged s a)
    (hb : Arranged s b) :
    Gives (combine tag policy a b).run s (.ok (combined s tag policy a b)) := by
  rw [combine_eq_build]
  exact gives_build tag _ _ (ha.named.unite policy hb.named) (ordinal_unite policy ha hb)

theorem Arranged.combined (tag : Tag) (policy : MergePolicy) (ha : Arranged s a)
    (hb : Arranged s b) : Arranged s (combined s tag policy a b) := by
  have hnamed := ha.named.unite policy hb.named
  have hperm := arrange_perm (fun p => outcome p.ordinal s)
    (unite policy a.providers b.providers)
  exact ⟨hnamed.perm hperm, fun p hp => ordinal_unite policy ha hb p (hperm.mem_iff.1 hp),
    arrange_arrange _ hnamed.distinct, _, rfl⟩

theorem arranged_empty (tag : Tag) : Arranged s (.empty tag) :=
  ⟨⟨nofun, .nil⟩, nofun, (arrange_perm _ []).eq_nil, [], rfl⟩

theorem combined_assoc (t₁ t₂ t : Tag) (policy : MergePolicy) (ha : Arranged s a)
    (hb : Arranged s b) (hc : Arranged s c) :
    combined s t policy (combined s t₁ policy a b) c =
      combined s t policy a (combined s t₂ policy b c) := by
  have hbc := (hb.combined t₂ policy hc).named
  have hperm := unite_assoc_perm policy ha.named hb.named hc.named
    (arrange_perm (fun p => outcome p.ordinal s) _) (arrange_perm (fun p => outcome p.ordinal s) _)
  have hproviders := arrange_eq_of_perm (fun p => outcome p.ordinal s)
    (ha.named.unite policy hbc).distinct hperm
  obtain ⟨as, has⟩ := ha.registered
  obtain ⟨bs, hbs⟩ := hb.registered
  obtain ⟨cs, hcs⟩ := hc.registered
  have hconverters :
      ConverterTable.ofList (mergeTables policy
        (.ofList (mergeTables policy a.converters b.converters)) c.converters) =
      .ofList (mergeTables policy a.converters
        (.ofList (mergeTables policy b.converters c.converters))) := by
    rw [has, hbs, hcs]
    cases policy with
    | override => simp only [mergeTables, ConverterTable.ofList_merge, List.append_assoc]
    | keepExisting => simp only [mergeTables, ConverterTable.ofList_merge, List.append_assoc]
  simp only [Context.combined, hconverters, List.append_assoc]
  rw [hproviders]
  rfl

theorem combined_empty_left (t e : Tag) (policy : MergePolicy) (ha : Arranged s a) :
    combined s t policy (.empty e) a = { a with tag := t } := by
  obtain ⟨as, has⟩ := ha.registered
  have hproviders : arrange (fun p => outcome p.ordinal s) (unite policy [] a.providers) =
      a.providers :=
    (arrange_eq_of_perm _ ha.named.distinct (unite_empty_perm policy ha.named)).trans ha.sorted
  have hconverters : ConverterTable.ofList (mergeTables policy [] a.converters) = a.converters := by
    rw [has]
    cases policy with
    | override => exact (ConverterTable.ofList_merge as []).trans (by rw [List.append_nil])
    | keepExisting => exact ConverterTable.ofList_merge [] as
  change (⟨t, arrange _ (unite policy [] a.providers), a.filters, _⟩ : Context (StateM σ)) = _
  rw [hproviders]
  exact congrArg _ hconverters

theorem combined_empty_right (t e : Tag) (policy : MergePolicy) (ha : Arranged s a) :
    combined s t policy a (.empty e) = { a with tag := t } := by
  obtain ⟨as, has⟩ := ha.registered
  have hconverters : ConverterTable.ofList (mergeTables policy a.converters []) = a.converters := by
    rw [has]
    cases policy with
    | override => exact ConverterTable.ofList_merge [] as
    | keepExisting => exact (ConverterTable.ofList_merge as []).trans (by rw [List.append_nil])
  change (⟨t, arrange _ a.providers, a.filters ++ [], _⟩ : Context (StateM σ)) = _
  rw [ha.sorted, List.append_nil]
  exact congrArg _ hconverters

theorem combined_dual (t : Tag) (ha : Arranged s a) (hb : Arranged s b) :
    combined s t .override b a =
      { combined s t .keepExisting a b with filters := b.filters ++ a.filters } := by
  have hproviders := arrange_eq_of_perm (fun p => outcome p.ordinal s)
    (ha.named.unite .keepExisting hb.named).distinct (unite_dual_perm ha.named hb.named)
  simp only [Context.combined, hproviders, mergeTables]

/-- Combining built contexts never fails, is associative, has the empty context as its identity on
both sides, and swaps its arguments, up to the order of the filters, when the policy is swapped. -/
theorem combine_laws (ha : Built s a) (hb : Built s b) (hc : Built s c) (policy : MergePolicy)
    (t t₁ t₂ e : Tag) :
    (∀ u, ∃ ab v, (combine t policy a b).run.run u = (.ok ab, v)) ∧
    (∃ ab bc abc, Gives (combine t₁ policy a b).run s (.ok ab) ∧
      Gives (combine t₂ policy b c).run s (.ok bc) ∧
      Gives (combine t policy ab c).run s (.ok abc) ∧
      Gives (combine t policy a bc).run s (.ok abc)) ∧
    (Gives (combine t policy (.empty e) a).run s (.ok { a with tag := t }) ∧
      Gives (combine t policy a (.empty e)).run s (.ok { a with tag := t })) ∧
    ∃ ab, ab.filters = a.filters ++ b.filters ∧
      Gives (combine t .keepExisting a b).run s (.ok ab) ∧
      Gives (combine t .override b a).run s (.ok { ab with filters := b.filters ++ a.filters }) := by
  replace ha := ha.arranged
  replace hb := hb.arranged
  replace hc := hc.arranged
  refine ⟨?_, ?_, ⟨?_, ?_⟩, ?_⟩
  · intro u
    obtain ⟨ab, v, hrun, -⟩ := combine_ok t policy ha.named hb.named u
    exact ⟨ab, v, hrun⟩
  · have habc := (ha.combined t₁ policy hb).gives_combine t policy hc
    refine ⟨_, _, _, ha.gives_combine t₁ policy hb, hb.gives_combine t₂ policy hc, habc, ?_⟩
    rw [combined_assoc t₁ t₂ t policy ha hb hc]
    exact ha.gives_combine t policy (hb.combined t₂ policy hc)
  · rw [← combined_empty_left t e policy ha]
    exact (arranged_empty e).gives_combine t policy ha
  · rw [← combined_empty_right t e policy ha]
    exact ha.gives_combine t policy (arranged_empty e)
  · refine ⟨_, rfl, ha.gives_combine t .keepExisting hb, ?_⟩
    rw [← combined_dual t ha hb]
    exact hb.gives_combine t .override ha

end

end Context

namespace Sample

/-- Three ways to fill a context, with two names that stand in two of them. -/
def lower : Builder Act :=
  ⟨[overrides, defaults], [upper], [ruled 1 .text "Plain" ["<text>"] .parse], .empty "none"⟩

def middle : Builder Act :=
  ⟨[fixed 5 "defaults"], [tag],
    [ruled 2 (.integer .u8) "Digits" ["<digits>"] .parse, ruled 3 .text "Other" [] .decline],
    .empty "none"⟩

def top : Builder Act :=
  ⟨[fixed 6 "overrides", fixed 7 "top"], [], [ruled 4 (.integer .u8) "Roman" [] .decline],
    .empty "none"⟩

theorem stacked_combine :
    let combine := Context.combine (m := Act)
    ∃ a b c, outcome (lower.buildContext 8).run contents = .ok a ∧
      outcome (middle.buildContext 9).run contents = .ok b ∧
      outcome (top.buildContext 10).run contents = .ok c ∧
      ∃ ab bc abc, outcome (combine 11 .override a b).run contents = .ok ab ∧
        outcome (combine 12 .override b c).run contents = .ok bc ∧
        outcome (combine 13 .override ab c).run contents = .ok abc ∧
        outcome (combine 13 .override a bc).run contents = .ok abc := by
  let := World.alike fun _ _ _ => .ok .empty
  have hfixed : ∀ p, p = overrides ∨ p = defaults ∨ (∃ t name, p = fixed t name) →
      Gives p.ordinal contents (outcome p.ordinal contents) := by
    rintro p (rfl | rfl | ⟨t, name, rfl⟩)
    · exact .of_steady (MemoryProvider.steady _ _).1.ordinal contents
    · exact .of_steady (MemoryProvider.steady _ _).1.ordinal contents
    · exact .of_steady (steady_fixed t name).1.ordinal contents
  have hbuilt : ∀ (b : Builder Act) (t : Tag), Context.Named b.providers →
      (∀ p ∈ b.providers, Gives p.ordinal contents (outcome p.ordinal contents)) →
      ∃ c, outcome (b.buildContext t).run contents = .ok c ∧ c.Built contents := by
    intro b t hnamed hordinal
    have hgives := Context.gives_build t b.filters b.converters hnamed hordinal
    obtain ⟨u, -, hrun⟩ := hgives contents (Setoid.refl contents)
    exact ⟨_, hgives.outcome_eq, t, b.providers, b.filters, b.converters,
      fun p hp => ⟨_, hordinal p hp⟩, contents, u, Setoid.refl contents, hrun⟩
  obtain ⟨a, ha, habuilt⟩ := hbuilt lower 8 ⟨by decide, by decide⟩
    (by simp [lower, hfixed])
  obtain ⟨b, hb, hbbuilt⟩ := hbuilt middle 9 ⟨by decide, by decide⟩
    (by simp [middle, hfixed])
  obtain ⟨c, hc, hcbuilt⟩ := hbuilt top 10 ⟨by decide, by decide⟩
    (by simp [top, hfixed])
  obtain ⟨-, ⟨ab, bc, abc, hab, hbc, hleft, hright⟩, -⟩ :=
    Context.combine_laws habuilt hbbuilt hcbuilt .override 13 11 12 14
  exact ⟨a, b, c, ha, hb, hc, ab, bc, abc, hab.outcome_eq, hbc.outcome_eq, hleft.outcome_eq,
    hright.outcome_eq⟩

end Sample

end LayeredConfig
