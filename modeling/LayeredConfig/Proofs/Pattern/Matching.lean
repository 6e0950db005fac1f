import LayeredConfig.Pattern.Regex
import LayeredConfig.Proofs.Pattern.Documented

/-!
The places where a match ends, computed and described. A repetition without a bound needs no more
rounds than there are characters left: a round that stays where it is can be left out.
-/

namespace LayeredConfig.Pattern

theorem Place.Reaches.trans {p q r : Place} (hpq : p.Reaches q) (hqr : q.Reaches r) :
    p.Reaches r := by
  obtain ⟨first, hafter, hbefore⟩ := hpq
  obtain ⟨second, hafter', hbefore'⟩ := hqr
  refine ⟨first ++ second, ?_, ?_⟩
  · rw [hafter, hafter', List.append_assoc]
  · rw [hbefore', hbefore, List.reverse_append, List.append_assoc]

theorem Place.Reaches.length_le {p q : Place} (h : p.Reaches q) :
    q.after.length ≤ p.after.length := by
  obtain ⟨taken, hafter, -⟩ := h
  rw [hafter, List.length_append]
  exact Nat.le_add_left _ _

theorem Place.Reaches.eq_of_length {p q : Place} (h : p.Reaches q)
    (hlength : p.after.length ≤ q.after.length) : q = p := by
  obtain ⟨taken, hafter, hbefore⟩ := h
  have htaken : taken = [] := by
    rw [hafter, List.length_append] at hlength
    exact List.eq_nil_of_length_eq_zero (by omega)
  cases p
  cases q
  rw [htaken] at hafter hbefore
  cases hafter
  cases hbefore
  rfl

/-- A relation holds from each place to the next one, so many times. -/
inductive Rounds (R : Place → Place → Prop) : Nat → Place → Place → Prop
  | zero (p : Place) : Rounds R 0 p p
  | succ {n : Nat} {p q s : Place} : R p q → Rounds R n q s → Rounds R (n + 1) p s

namespace Rounds

variable {R : Place → Place → Prop} {m n : Nat} {p q s : Place}

theorem zero_iff : Rounds R 0 p q ↔ q = p := by
  constructor
  · rintro ⟨⟩
    rfl
  · rintro rfl
    exact .zero _

theorem succ_iff : Rounds R (n + 1) p s ↔ ∃ q, R p q ∧ Rounds R n q s := by
  constructor
  · rintro (_ | ⟨hstep, hrest⟩)
    exact ⟨_, hstep, hrest⟩
  · rintro ⟨q, hstep, hrest⟩
    exact .succ hstep hrest

theorem add_iff : Rounds R (m + n) p s ↔ ∃ q, Rounds R m p q ∧ Rounds R n q s := by
  induction m generalizing p with
  | zero => simp [zero_iff]
  | succ m ih =>
      rw [Nat.succ_add, succ_iff]
      simp only [ih, succ_iff]
      constructor
      · rintro ⟨q, hstep, q', hm, hn⟩
        exact ⟨q', ⟨q, hstep, hm⟩, hn⟩
      · rintro ⟨q', ⟨q, hstep, hm⟩, hn⟩
        exact ⟨q, hstep, q', hm, hn⟩

theorem reaches (hR : ∀ p q, R p q → p.Reaches q) (h : Rounds R n p q) : p.Reaches q := by
  induction h with
  | zero p => exact .refl p
  | succ hstep _ ih => exact (hR _ _ hstep).trans ih

theorem exists_le (hR : ∀ p q, R p q → p.Reaches q) (h : Rounds R n p q) :
    ∃ k, k + q.after.length ≤ p.after.length ∧ Rounds R k p q := by
  -- The rounds that do not move can be left out.
  induction h with
  | zero p => exact ⟨0, by omega, .zero p⟩
  | @succ n p q s hstep _ ih =>
      obtain ⟨k, hk, hrounds⟩ := ih
      by_cases hlength : p.after.length ≤ q.after.length
      · rw [(hR p q hstep).eq_of_length hlength] at hk hrounds
        exact ⟨k, hk, hrounds⟩
      · exact ⟨k + 1, by omega, .succ hstep hrounds⟩

end Rounds

namespace Regex

theorem Matches.reaches {r : Regex} {p q : Place} (h : Matches r p q) : p.Reaches q := by
  induction h with
  | empty p => exact .refl p
  | @set _ c before after _ => exact ⟨[c], rfl, rfl⟩
  | @look _ p _ => exact .refl p
  | cat _ _ iha ihb => exact iha.trans ihb
  | altLeft _ ih => exact ih
  | altRight _ ih => exact ih
  | done p => exact .refl p
  | more _ _ ihfirst ihrest => exact ihfirst.trans ihrest
  | moreBounded _ _ ihfirst ihrest => exact ihfirst.trans ihrest

theorem matches_empty_iff {p q : Place} : Matches .empty p q ↔ q = p := by
  constructor
  · rintro ⟨⟩
    rfl
  · rintro rfl
    exact .empty _

theorem matches_look_iff {l : Look} {p q : Place} :
    Matches (.look l) p q ↔ l.holds p = true ∧ q = p := by
  constructor
  · rintro ⟨⟩
    exact ⟨‹_›, rfl⟩
  · rintro ⟨h, rfl⟩
    exact .look h

theorem matches_cat_iff {a b : Regex} {p r : Place} :
    Matches (.cat a b) p r ↔ ∃ q, Matches a p q ∧ Matches b q r := by
  constructor
  · rintro ⟨⟩
    exact ⟨_, ‹_›, ‹_›⟩
  · rintro ⟨q, ha, hb⟩
    exact .cat ha hb

theorem matches_alt_iff {a b : Regex} {p q : Place} :
    Matches (.alt a b) p q ↔ Matches a p q ∨ Matches b p q := by
  constructor
  · rintro (_ | _ | _ | _ | h | h)
    · exact .inl h
    · exact .inr h
  · rintro (h | h)
    · exact .altLeft h
    · exact .altRight h

theorem matches_repeat_iff {low : Nat} {high : Option Nat} {r : Regex} {p q : Place} :
    Matches (.repeat low high r) p q ↔
      ∃ n, low ≤ n ∧ (∀ h, high = some h → n ≤ h) ∧ Rounds (Matches r) n p q := by
  constructor
  · intro h
    generalize hrepeat : Regex.repeat low high r = whole at h
    induction h generalizing low high with
    | done p =>
        cases hrepeat
        exact ⟨0, by omega, fun _ _ => by omega, .zero p⟩
    | more hfirst _ _ ih =>
        cases hrepeat
        obtain ⟨n, hlow, -, hrounds⟩ := ih rfl
        exact ⟨n + 1, by omega, nofun, .succ hfirst hrounds⟩
    | moreBounded hfirst _ _ ih =>
        cases hrepeat
        obtain ⟨n, hlow, hhigh, hrounds⟩ := ih rfl
        refine ⟨n + 1, by omega, ?_, .succ hfirst hrounds⟩
        rintro _ ⟨⟩
        exact Nat.succ_le_succ (hhigh _ rfl)
    | _ => cases hrepeat
  · rintro ⟨n, hlow, hhigh, hrounds⟩
    induction n generalizing low high p with
    | zero =>
        obtain rfl := Rounds.zero_iff.1 hrounds
        obtain rfl : low = 0 := by omega
        exact .done _
    | succ n ih =>
        obtain ⟨s, hfirst, hrest⟩ := Rounds.succ_iff.1 hrounds
        cases high with
        | none => exact .more hfirst (ih (by omega) nofun hrest)
        | some high =>
            have hn := hhigh high rfl
            obtain ⟨high, rfl⟩ : ∃ k, high = k + 1 := ⟨high - 1, by omega⟩
            refine .moreBounded hfirst (ih (by omega) ?_ hrest)
            rintro _ ⟨⟩
            omega

section Step

variable {R : Place → Place → Prop} {step : List Place → List Place} {n : Nat} {ps : List Place}
  {q : Place}

theorem mem_iterate (hstep : ∀ ps q, q ∈ step ps ↔ ∃ p ∈ ps, R p q) :
    q ∈ iterate step n ps ↔ ∃ p ∈ ps, Rounds R n p q := by
  induction n generalizing ps with
  | zero => simp [iterate, Rounds.zero_iff]
  | succ n ih =>
      rw [iterate, ih]
      simp only [hstep, Rounds.succ_iff]
      grind

theorem mem_reach (hstep : ∀ ps q, q ∈ step ps ↔ ∃ p ∈ ps, R p q) :
    q ∈ reach step n ps ↔ ∃ p ∈ ps, ∃ k ≤ n, Rounds R k p q := by
  induction n generalizing ps with
  | zero => simp [reach, Rounds.zero_iff]
  | succ n ih =>
      rw [reach]
      split
      · rename_i hempty
        simp [hempty]
      · rw [List.mem_eraseDups, List.mem_append, ih]
        simp only [hstep]
        constructor
        · rintro (hq | ⟨s, ⟨p, hp, hfirst⟩, k, hk, hrest⟩)
          · exact ⟨q, hq, 0, by omega, .zero q⟩
          · exact ⟨p, hp, k + 1, by omega, .succ hfirst hrest⟩
        · rintro ⟨p, hp, k, hk, hrounds⟩
          cases hrounds with
          | zero => exact .inl hp
          | @succ k _ s _ hfirst hrest => exact .inr ⟨s, ⟨p, hp, hfirst⟩, k, by omega, hrest⟩

theorem mem_reach_iterate {low : Nat} {p : Place}
    (hstep : ∀ ps q, q ∈ step ps ↔ ∃ p ∈ ps, R p q) :
    q ∈ reach step n (iterate step low [p]) ↔ ∃ k ≤ n, Rounds R (low + k) p q := by
  rw [mem_reach hstep]
  simp only [mem_iterate hstep, List.mem_singleton, Rounds.add_iff]
  constructor
  · rintro ⟨s, ⟨_, rfl, hlow⟩, k, hk, hmore⟩
    exact ⟨k, hk, s, hlow, hmore⟩
  · rintro ⟨k, hk, s, hlow, hmore⟩
    exact ⟨s, ⟨p, rfl, hlow⟩, k, hk, hmore⟩

end Step

theorem mem_ends_set {s : CharSet} {p q : Place} : q ∈ ends (.set s) p ↔ Matches (.set s) p q := by
  obtain ⟨before, after⟩ := p
  cases after with
  | nil =>
      rw [ends]
      exact ⟨nofun, nofun⟩
  | cons c after =>
      rw [ends]
      split
      · rename_i hs
        rw [List.mem_singleton]
        constructor
        · rintro rfl
          exact .set hs
        · rintro ⟨⟩
          rfl
      · rename_i hs
        refine ⟨nofun, ?_⟩
        rintro ⟨⟩
        exact absurd ‹_› hs

theorem mem_ends_repeat {low : Nat} {high : Option Nat} {r : Regex} {p q : Place}
    (hends : ∀ p q, q ∈ ends r p ↔ Matches r p q) :
    q ∈ ends (.repeat low high r) p ↔ Matches (.repeat low high r) p q := by
  have hstep : ∀ (ps : List Place) q,
      q ∈ (ps.flatMap (ends r)).eraseDups ↔ ∃ p ∈ ps, Matches r p q := by
    intro ps q
    rw [List.mem_eraseDups, List.mem_flatMap]
    simp only [hends]
  rw [matches_repeat_iff]
  cases high with
  | none =>
      simp only [ends]
      rw [mem_reach_iterate hstep]
      constructor
      · rintro ⟨k, -, hrounds⟩
        exact ⟨low + k, by omega, nofun, hrounds⟩
      · rintro ⟨n, hn, -, hrounds⟩
        obtain ⟨k, rfl⟩ := Nat.exists_eq_add_of_le hn
        obtain ⟨s, hlow, hmore⟩ := Rounds.add_iff.1 hrounds
        -- A round that moves takes a character, so there are no more of them than characters.
        obtain ⟨j, hj, hfew⟩ := hmore.exists_le fun _ _ => Matches.reaches
        have hs := (hlow.reaches fun _ _ => Matches.reaches).length_le
        exact ⟨j, by omega, Rounds.add_iff.2 ⟨s, hlow, hfew⟩⟩
  | some high =>
      simp only [ends]
      split
      · rename_i hbounds
        refine ⟨nofun, ?_⟩
        rintro ⟨n, hlow, hhigh, -⟩
        have := hhigh high rfl
        omega
      · rename_i hbounds
        rw [mem_reach_iterate hstep]
        constructor
        · rintro ⟨k, hk, hrounds⟩
          refine ⟨low + k, by omega, ?_, hrounds⟩
          rintro _ ⟨⟩
          omega
        · rintro ⟨n, hn, hhigh, hrounds⟩
          have := hhigh high rfl
          obtain ⟨k, rfl⟩ := Nat.exists_eq_add_of_le hn
          exact ⟨k, by omega, hrounds⟩

/-- The places that are computed are the ones where a match ends. -/
theorem mem_ends {r : Regex} {p q : Place} : q ∈ ends r p ↔ Matches r p q := by
  induction r generalizing p q with
  | empty => rw [ends, List.mem_singleton, matches_empty_iff]
  | set s => exact mem_ends_set
  | look l =>
      rw [ends, matches_look_iff]
      split <;> simp_all
  | cat a b iha ihb =>
      rw [ends, List.mem_eraseDups, List.mem_flatMap, matches_cat_iff]
      simp only [iha, ihb]
  | alt a b iha ihb => rw [ends, List.mem_eraseDups, List.mem_append, iha, ihb, matches_alt_iff]
  | «repeat» low high r ih => exact mem_ends_repeat fun _ _ => ih

theorem mem_places {before s : List Char} {p : Place} :
    p ∈ places before s ↔ Place.Reaches ⟨before, s⟩ p := by
  constructor
  · intro h
    induction s generalizing before with
    | nil =>
        obtain rfl := List.mem_singleton.1 h
        exact .refl _
    | cons c s ih =>
        rcases List.mem_cons.1 h with rfl | h
        · exact .refl _
        · exact Place.Reaches.trans ⟨[c], rfl, rfl⟩ (ih h)
  · rintro ⟨taken, hafter, hbefore⟩
    simp only at hafter hbefore
    subst hafter
    induction taken generalizing before with
    | nil =>
        obtain ⟨before', after⟩ := p
        cases hbefore
        cases after <;> simp [places]
    | cons c taken ih =>
        rw [List.cons_append, places]
        refine List.mem_cons_of_mem _ (ih ?_)
        rw [hbefore, List.reverse_cons, List.append_assoc]
        rfl

theorem isMatch_iff {r : Regex} {s : List Char} :
    r.isMatch s = true ↔ ∃ p q, Place.Reaches ⟨[], s⟩ p ∧ Matches r p q := by
  simp only [isMatch, List.any_eq_true, mem_places, Bool.not_eq_true', List.isEmpty_eq_false_iff]
  constructor
  · rintro ⟨p, hp, hends⟩
    obtain ⟨q, hq⟩ := List.exists_mem_of_ne_nil _ hends
    exact ⟨p, q, hp, mem_ends.1 hq⟩
  · rintro ⟨p, q, hp, hmatch⟩
    exact ⟨p, hp, List.ne_nil_of_mem (mem_ends.2 hmatch)⟩

end Regex

end LayeredConfig.Pattern
