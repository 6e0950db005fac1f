import LayeredConfig.Proofs.Lookup.Gives

/-!
The effective order of providers, by whatever ordinals they have. Among providers with different
names the order is strict, so it does not depend on the order in which they are given.
-/

namespace LayeredConfig.Context

variable {m : Type → Type} {σ : Type}

/-- Providers have names, and no two of them the same. -/
structure Named (ps : List (Provider m)) : Prop where
  nonempty : ∀ p ∈ ps, p.name ≠ ""
  distinct : (ps.map (·.name)).Nodup

/-- The providers by descending ordinal, then by name. -/
def arrange (ordinal : Provider m → Int) (ps : List (Provider m)) : List (Provider m) :=
  ((ps.map fun p => (ordinal p, p)).mergeSort before).map (·.2)

theorem before_iff {a b : Int × Provider m} :
    before a b = true ↔ b.1 < a.1 ∨ a.1 = b.1 ∧ a.2.name ≤ b.2.name := by
  simp [before]

theorem before_trans (a b c : Int × Provider m) (hab : before a b = true)
    (hbc : before b c = true) : before a c = true := by
  rw [before_iff] at *
  rcases hab with hab | ⟨hab, hab'⟩
  · left
    omega
  · rcases hbc with hbc | ⟨hbc, hbc'⟩
    · left
      omega
    · exact .inr ⟨hab.trans hbc, String.le_trans hab' hbc'⟩

theorem before_total (a b : Int × Provider m) : (before a b || before b a) = true := by
  rw [Bool.or_eq_true, before_iff, before_iff]
  rcases Int.lt_trichotomy a.1 b.1 with hlt | heq | hlt
  · exact .inr (.inl hlt)
  · rcases String.le_total a.2.name b.2.name with h | h
    · exact .inl (.inr ⟨heq, h⟩)
    · exact .inr (.inr ⟨heq.symm, h⟩)
  · exact .inl (.inl hlt)

theorem arrange_perm (ordinal : Provider m → Int) (ps : List (Provider m)) :
    (arrange ordinal ps).Perm ps := by
  refine ((List.mergeSort_perm _ _).map _).trans ?_
  rw [List.map_map]
  exact .of_eq (List.map_id ps)

theorem arrange_pairwise (ordinal : Provider m → Int) {ps : List (Provider m)}
    (hdistinct : (ps.map (·.name)).Nodup) :
    (arrange ordinal ps).Pairwise fun p q =>
      ordinal q < ordinal p ∨ ordinal p = ordinal q ∧ p.name < q.name := by
  have hnames : (arrange ordinal ps).Pairwise fun p q => p.name ≠ q.name := by
    rw [← List.pairwise_map (f := Provider.name)]
    exact ((arrange_perm ordinal ps).map _).nodup_iff.2 hdistinct
  rw [arrange, List.pairwise_map] at *
  refine ((List.pairwise_mergeSort before_trans before_total _).and hnames).imp_of_mem ?_
  intro a b ha hb hab
  obtain ⟨p, -, rfl⟩ := List.mem_map.1 (List.mem_mergeSort.1 ha)
  obtain ⟨q, -, rfl⟩ := List.mem_map.1 (List.mem_mergeSort.1 hb)
  obtain ⟨hbefore, hne⟩ := hab
  rcases before_iff.1 hbefore with hlt | ⟨heq, hle⟩
  · exact .inl hlt
  · exact .inr ⟨heq, String.not_le.1 fun hle' => hne (String.le_antisymm hle hle')⟩

/-- The order does not depend on the order in which the providers are given. -/
theorem arrange_eq_of_perm (ordinal : Provider m → Int) {ps qs : List (Provider m)}
    (hdistinct : (ps.map (·.name)).Nodup) (hperm : qs.Perm ps) :
    arrange ordinal qs = arrange ordinal ps := by
  have hdistinct' : (qs.map (·.name)).Nodup := (hperm.map _).nodup_iff.2 hdistinct
  refine List.Perm.eq_of_pairwise ?_ (arrange_pairwise ordinal hdistinct')
    (arrange_pairwise ordinal hdistinct)
    ((arrange_perm ordinal qs).trans (hperm.trans (arrange_perm ordinal ps).symm))
  intro p q _ _ hpq hqp
  rcases hpq with hlt | ⟨heq, hname⟩
  · omega
  · rcases hqp with hlt | ⟨-, hname'⟩
    · omega
    · exact absurd hname' (String.lt_asymm hname)

theorem arrange_arrange (ordinal : Provider m → Int) {ps : List (Provider m)}
    (hdistinct : (ps.map (·.name)).Nodup) :
    arrange ordinal (arrange ordinal ps) = arrange ordinal ps :=
  arrange_eq_of_perm ordinal hdistinct (arrange_perm ordinal ps)

theorem Named.perm {ps qs : List (Provider m)} (h : Named ps) (hperm : qs.Perm ps) : Named qs :=
  ⟨fun p hp => h.nonempty p (hperm.mem_iff.1 hp), (hperm.map _).nodup_iff.2 h.distinct⟩

theorem checkNames_eq_ok_iff {seen : List String} {ps : List (Provider m)} :
    checkNames seen ps = .ok () ↔ Named ps ∧ ∀ p ∈ ps, p.name ∉ seen := by
  induction ps generalizing seen with
  | nil => exact ⟨fun _ => ⟨⟨nofun, .nil⟩, nofun⟩, fun _ => rfl⟩
  | cons p ps ih =>
      rw [checkNames]
      constructor
      · intro h
        split at h
        · cases h
        · split at h
          · cases h
          · rename_i hp hseen
            obtain ⟨hnamed, hnot⟩ := ih.1 h
            refine ⟨⟨List.forall_mem_cons.2 ⟨hp, hnamed.nonempty⟩, ?_⟩, ?_⟩
            · refine List.nodup_cons.2 ⟨?_, hnamed.distinct⟩
              intro hmem
              obtain ⟨q, hq, hname⟩ := List.mem_map.1 hmem
              exact hnot q hq (hname ▸ List.mem_cons_self)
            · refine List.forall_mem_cons.2 ⟨by simpa using hseen, ?_⟩
              intro q hq hmem
              exact hnot q hq (List.mem_cons_of_mem p.name hmem)
      · rintro ⟨⟨hnames, hdistinct⟩, hnot⟩
        obtain ⟨hp, hps⟩ := List.forall_mem_cons.1 hnames
        obtain ⟨hpseen, hpsseen⟩ := List.forall_mem_cons.1 hnot
        obtain ⟨hnew, hdistinct⟩ := List.nodup_cons.1 hdistinct
        rw [if_neg hp, if_neg (by simpa using hpseen)]
        refine ih.2 ⟨⟨hps, hdistinct⟩, fun q hq => ?_⟩
        rw [List.mem_cons, not_or]
        refine ⟨fun h => hnew (List.mem_map.2 ⟨q, hq, h⟩), hpsseen q hq⟩

theorem checkNames_of_named {ps : List (Provider m)} (h : Named ps) : checkNames [] ps = .ok () :=
  checkNames_eq_ok_iff.2 ⟨h, fun _ _ => List.not_mem_nil⟩

theorem outcome_rank_snd (ps : List (Provider (StateM σ))) (s : σ) :
    (outcome (rank ps) s).map (·.2) = ps := by
  induction ps generalizing s with
  | nil => rfl
  | cons p ps ih =>
      change p :: (outcome (rank ps) _).map (·.2) = p :: ps
      rw [ih]

theorem outcome_sort_perm (ps : List (Provider (StateM σ))) (s : σ) :
    (outcome (sort ps) s).Perm ps := by
  change (((outcome (rank ps) s).mergeSort before).map (·.2)).Perm ps
  refine ((List.mergeSort_perm _ _).map _).trans ?_
  rw [outcome_rank_snd]

theorem build_run (tag : Tag) {ps : List (Provider (StateM σ))} (fs : List (Filter (StateM σ)))
    (cs : List (Converter (StateM σ))) (hnamed : Named ps) (s : σ) :
    (build tag ps fs cs).run.run s =
      (.ok ⟨tag, outcome (sort ps) s, fs, .ofList cs⟩, after (sort ps) s) := by
  rw [build, checkNames_of_named hnamed]
  rfl

theorem build_eq_ok {tag : Tag} {ps : List (Provider (StateM σ))} {fs : List (Filter (StateM σ))}
    {cs : List (Converter (StateM σ))} {s t : σ} {c : Context (StateM σ)}
    (h : (build tag ps fs cs).run.run s = (.ok c, t)) :
    Named ps ∧ c = ⟨tag, outcome (sort ps) s, fs, .ofList cs⟩ ∧ t = after (sort ps) s := by
  rw [build] at h
  rcases run_bind_except h with ⟨e, -, he, -⟩ | ⟨u, hnames, hrun⟩
  · cases he
  · cases hrun
    exact ⟨(checkNames_eq_ok_iff.1 hnames).1, rfl, rfl⟩

section
variable [Setoid σ] {ps : List (Provider (StateM σ))} {s : σ}

theorem gives_rank (h : ∀ p ∈ ps, Gives p.ordinal s (outcome p.ordinal s)) :
    Gives (rank ps) s (ps.map fun p => (outcome p.ordinal s, p)) := by
  induction ps with
  | nil => exact .pure [] s
  | cons p ps ih =>
      obtain ⟨hp, hps⟩ := List.forall_mem_cons.1 h
      exact hp.bind ((ih hps).bind (.pure _ s))

theorem gives_sort (h : ∀ p ∈ ps, Gives p.ordinal s (outcome p.ordinal s)) :
    Gives (sort ps) s (arrange (fun p => outcome p.ordinal s) ps) :=
  (gives_rank h).bind (.pure _ s)

theorem gives_build (tag : Tag) (fs : List (Filter (StateM σ))) (cs : List (Converter (StateM σ)))
    (hnamed : Named ps) (h : ∀ p ∈ ps, Gives p.ordinal s (outcome p.ordinal s)) :
    Gives (build tag ps fs cs).run s
      (.ok ⟨tag, arrange (fun p => outcome p.ordinal s) ps, fs, .ofList cs⟩) := by
  let result sorted : Context (StateM σ) := ⟨tag, sorted, fs, .ofList cs⟩
  rw [build, checkNames_of_named hnamed]
  exact (gives_sort h).lift.bindExcept (f := fun sorted => pure (result sorted))
    (.pure (Except.ok (result _)) s)

end

end LayeredConfig.Context
