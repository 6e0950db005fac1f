import LayeredConfig.Configuration.Derived
import LayeredConfig.Proofs.Lookup.Gives
import Mathlib.Data.List.Forall2

/-!
Views whose look-ups agree with their listings. Each way to derive a view keeps this, although it
answers a look-up and lists its entries in two different ways: by putting a prefix before the key or
by cutting it off, by searching from the top or by laying one map over the other.
-/

namespace LayeredConfig

namespace KeyMap

variable {β : Type}

theorem get?_overlay (a b : KeyMap β) (k : String) :
    (a.overlay b).get? k = (b.get? k).or (a.get? k) := by
  rw [overlay, get?_insertAll, lookup_reverse b.sorted]
  rfl

end KeyMap

namespace View

variable {σ : Type} [Setoid σ]

/-- In the states alike to `s`, a view lists the entries of a map, none of them under the empty key
and each under the key of its value, and it answers a look-up as the map does. -/
structure Coherent (v : View (StateM σ)) (s : σ) (m : KeyMap PropertyValue) : Prop where
  properties : Gives v.properties.run s (.ok m)
  get : ∀ key, key ≠ "" → Gives (v.get key).run s (.ok (m.get? key))
  keys : ∀ key value, m.get? key = some value → key ≠ "" ∧ value.key = key

def moved (key : String) (v : PropertyValue) : PropertyValue := { v with key }

theorem withKey_eq_ok {key : String} (h : key ≠ "") (v : PropertyValue) :
    v.withKey key = .ok (moved key v) := by
  rw [PropertyValue.withKey, ConfigError.requireKey_ok h]
  rfl

variable {v : View (StateM σ)} {s : σ} {m : KeyMap PropertyValue}

def stripped (lead : List Char) (e : String × PropertyValue) : Option (String × PropertyValue) :=
  ((Text.dropPrefix? lead e.1.toList).filter (· ≠ [])).map fun rest =>
    (String.ofList rest, moved (String.ofList rest) e.2)

theorem dropPrefixes_eq (lead : List Char) (acc : KeyMap PropertyValue)
    (l : List (String × PropertyValue)) :
    dropPrefixes lead acc l = .ok (acc.insertAll (l.filterMap (stripped lead))) := by
  induction l generalizing acc with
  | nil => rfl
  | cons e l ih =>
      obtain ⟨key, value⟩ := e
      rw [dropPrefixes, List.filterMap_cons, stripped]
      cases h : Text.dropPrefix? lead key.toList with
      | none => exact ih acc
      | some rest =>
          cases rest with
          | nil => exact ih acc
          | cons c cs =>
              have hne : String.ofList (c :: cs) ≠ "" := by simp
              dsimp only
              rw [withKey_eq_ok hne]
              exact ih _

theorem lookup_stripped (lead : List Char) {key : String} (hkey : key ≠ "")
    (l : List (String × PropertyValue)) :
    KeyMap.lookup key (l.filterMap (stripped lead)) =
      (KeyMap.lookup (String.ofList lead ++ key) l).map (moved key) := by
  induction l with
  | nil => rfl
  | cons e l ih =>
      obtain ⟨k, value⟩ := e
      rw [List.filterMap_cons, KeyMap.lookup]
      by_cases hk : k = String.ofList lead ++ key
      · have hrest : key.toList ≠ [] := by simpa using hkey
        have hdrop : Text.dropPrefix? lead k.toList = some key.toList := by
          simp [hk, Text.dropPrefix?_append]
        have hstrip : stripped lead (k, value) = some (key, moved key value) := by
          rw [stripped, hdrop, Option.filter_some, if_pos (by simpa using hrest), Option.map_some,
            String.ofList_toList]
        rw [hstrip, if_pos hk]
        exact if_pos rfl
      · rw [if_neg hk, ← ih]
        cases hstrip : stripped lead (k, value) with
        | none => rfl
        | some e =>
            rw [stripped, Option.map_eq_some_iff] at hstrip
            obtain ⟨rest, hdrop, rfl⟩ := hstrip
            have hsplit := Text.dropPrefix?_eq_some_iff.1 (Option.filter_eq_some_iff.1 hdrop).1
            have hne : String.ofList rest ≠ key := by
              rintro rfl
              apply hk
              rw [← String.ofList_append, ← hsplit, String.ofList_toList]
            exact if_neg hne

def strip (lead : List Char) (m : KeyMap PropertyValue) : KeyMap PropertyValue :=
  .ofList (m.entries.filterMap (stripped lead))

theorem get?_strip (lead : List Char) (m : KeyMap PropertyValue) (key : String) :
    (strip lead m).get? key =
      if key = "" then none else (m.get? (String.ofList lead ++ key)).map (moved key) := by
  rw [strip, KeyMap.get?_ofList, ← List.filterMap_reverse]
  split
  · rename_i hkey
    rw [KeyMap.lookup_eq_none_iff]
    intro e he
    obtain ⟨e', -, hstrip⟩ := List.mem_filterMap.1 he
    rw [stripped, Option.map_eq_some_iff] at hstrip
    obtain ⟨rest, hdrop, rfl⟩ := hstrip
    have hrest : rest ≠ [] := by simpa using (Option.filter_eq_some_iff.1 hdrop).2
    simpa [hkey] using hrest
  · rename_i hkey
    rw [lookup_stripped lead hkey, KeyMap.lookup_reverse m.sorted]
    rfl

theorem append_ne_empty (lead : List Char) {key : String} (hkey : key ≠ "") :
    String.ofList lead ++ key ≠ "" :=
  fun hempty => hkey (String.append_eq_empty_iff.1 hempty).2

section
variable {m : Type → Type} [Monad m]

theorem get_project_stripped [LawfulMonad m] (tag : Tag) (lead : List Char) (v : View m)
    {key : String} (hkey : key ≠ "") : (v.project tag lead true).get key = do
      return (← v.get (String.ofList lead ++ key)).map (moved key) := by
  change v.get (String.ofList lead ++ key) >>= _ = v.get (String.ofList lead ++ key) >>= _
  congr
  funext found
  cases found with
  | none => rfl
  | some found =>
      dsimp only
      rw [withKey_eq_ok hkey]
      exact pure_bind _ _

theorem properties_project_stripped (tag : Tag) (lead : List Char) (v : View m) :
    (v.project tag lead true).properties = do return strip lead (← v.properties) := by
  change v.properties >>= _ = v.properties >>= _
  congr
  funext shown
  rw [if_pos rfl, dropPrefixes_eq]
  rfl

end

theorem Coherent.projectStripped (h : v.Coherent s m) (tag : Tag) (lead : List Char) :
    ∃ m', (v.project tag lead true).Coherent s m' ∧ ∀ key, m'.get? key =
      if key = "" then none else (m.get? (String.ofList lead ++ key)).map (moved key) := by
  refine ⟨strip lead m, ⟨?_, ?_, ?_⟩, get?_strip lead m⟩
  · rw [properties_project_stripped]
    exact h.properties.bindExcept (.ok _ s)
  · intro key hkey
    rw [get_project_stripped tag lead v hkey, get?_strip, if_neg hkey]
    exact (h.get _ (append_ne_empty lead hkey)).bindExcept (.ok _ s)
  · intro key value hvalue
    rw [get?_strip] at hvalue
    split at hvalue
    · cases hvalue
    · rename_i hkey
      obtain ⟨found, -, rfl⟩ := Option.map_eq_some_iff.1 hvalue
      exact ⟨hkey, rfl⟩

/-- Showing some of the entries, by a test that look-ups and listings read alike. -/
theorem Coherent.restrict (h : v.Coherent s m) {v' : View (StateM σ)}
    (p : String → PropertyValue → Bool)
    (hproperties : Gives v'.properties.run s (.ok (m.filter p)))
    (hget : ∀ key, key ≠ "" → Gives (v'.get key).run s (.ok ((m.get? key).filter (p key)))) :
    v'.Coherent s (m.filter p) := by
  refine ⟨hproperties, ?_, ?_⟩
  · intro key hkey
    rw [KeyMap.get?_filter]
    exact hget key hkey
  · intro key value hvalue
    rw [KeyMap.get?_filter, Option.filter_eq_some_iff] at hvalue
    exact h.keys key value hvalue.1

theorem Coherent.project (h : v.Coherent s m) (tag : Tag) (lead : List Char) :
    (v.project tag lead false).Coherent s
      (m.filter fun key _ => lead.isPrefixOf key.toList) := by
  refine h.restrict _ (h.properties.bindExcept (.ok _ s)) ?_
  intro key hkey
  change Gives (ExceptT.run (if lead.isPrefixOf key.toList then v.get key else pure none)) s _
  cases hlead : lead.isPrefixOf key.toList with
  | false =>
      have hnone : (m.get? key).filter (fun _ => false) = none := by
        cases m.get? key with
        | none => rfl
        | some value => rfl
      rw [hnone]
      exact .ok none s
  | true =>
      have hall : (m.get? key).filter (fun _ => true) = m.get? key := by
        cases m.get? key with
        | none => rfl
        | some value => rfl
      rw [hall]
      exact h.get key hkey

theorem Coherent.select (h : v.Coherent s m) (tag : Tag) (test : String → String → Bool) :
    (v.select tag test).Coherent s (m.filter fun key found => test key (found.value.getD "")) := by
  have hkeys : (m.filter fun _ found => test found.key (found.value.getD "")) =
      m.filter fun key found => test key (found.value.getD "") := by
    apply KeyMap.ext
    refine List.filter_congr ?_
    intro e he
    dsimp only
    rw [(h.keys e.1 e.2 (KeyMap.get?_eq_some_iff.2 he)).2]
  refine h.restrict _ ?_ ?_
  · rw [← hkeys]
    exact h.properties.bindExcept (.ok _ s)
  · intro key hkey
    have hown : (m.get? key).filter (fun found => test key (found.value.getD "")) =
        (m.get? key).filter fun found => test found.key (found.value.getD "") := by
      cases hvalue : m.get? key with
      | none => rfl
      | some found =>
          rw [Option.filter_some, Option.filter_some, (h.keys key found hvalue).2]
    rw [hown]
    exact (h.get key hkey).bindExcept (.ok _ s)

def renamed (f : String → Option String) (e : String × PropertyValue) :
    Option (String × PropertyValue) :=
  ((f e.1).filter (· ≠ "")).map fun name => (name, moved name e.2)

theorem renameEntries_eq (f : String → Option String) (acc : KeyMap PropertyValue)
    (l : List (String × PropertyValue)) :
    ∃ m', renameEntries f acc l = .ok m' ∧
      ∀ key, m'.get? key = (acc.get? key).or (KeyMap.lookup key (l.filterMap (renamed f))) := by
  induction l generalizing acc with
  | nil => exact ⟨acc, rfl, fun key => Option.or_none.symm⟩
  | cons e l ih =>
      obtain ⟨k, value⟩ := e
      rw [renameEntries, List.filterMap_cons, renamed]
      cases hname : f k with
      | none => exact ih acc
      | some name =>
          by_cases hempty : name = ""
          · simp only [hempty, Option.filter_some]
            exact ih acc
          · have hsome : (some name).filter (· ≠ "") = some name := by simp [hempty]
            rw [hsome]
            by_cases htaken : acc.contains name = true
            · obtain ⟨m', hm', hget⟩ := ih acc
              refine ⟨m', by simp [htaken, hm'], ?_⟩
              intro key
              rw [hget]
              by_cases hkey : name = key
              · subst hkey
                obtain ⟨w, hw⟩ := Option.isSome_iff_exists.1 htaken
                rw [hw]
                rfl
              · change _ = Option.or _ (KeyMap.lookup key ((name, moved name value) :: _))
                rw [KeyMap.lookup, if_neg hkey]
            · obtain ⟨m', hm', hget⟩ := ih (acc.insert name (moved name value))
              refine ⟨m', ?_, ?_⟩
              · have htest : (name = "" || acc.contains name) = false := by simp [hempty, htaken]
                dsimp only
                rw [htest, withKey_eq_ok hempty]
                exact hm'
              · intro key
                change _ = Option.or _ (KeyMap.lookup key ((name, moved name value) :: _))
                rw [hget, KeyMap.get?_insert, KeyMap.lookup]
                by_cases hkey : name = key
                · subst hkey
                  have hnone : acc.get? name = none := by simpa [KeyMap.contains] using htaken
                  rw [if_pos rfl, if_pos rfl, hnone]
                  rfl
                · rw [if_neg hkey, if_neg hkey]

theorem lookup_renamed {f : String → Option String} {l : List (String × PropertyValue)}
    (h : l.Pairwise fun a b => a.1 < b.1) {key : String} {value : PropertyValue} :
    KeyMap.lookup key (l.filterMap (renamed f)) = some value ↔
      key ≠ "" ∧ ∃ e ∈ l, f e.1 = some key ∧ value = moved key e.2 ∧
        ∀ e' ∈ l, f e'.1 = some key → e.1 ≤ e'.1 := by
  induction l with
  | nil => simp [KeyMap.lookup]
  | cons e l ih =>
      obtain ⟨hlt, hl⟩ := List.pairwise_cons.1 h
      rw [List.filterMap_cons]
      by_cases hname : f e.1 = some key
      · by_cases hkey : key = ""
        · have hnone : renamed f e = none := by simp [renamed, hname, hkey]
          rw [hnone, ih hl]
          simp [hkey]
        · have hsome : renamed f e = some (key, moved key e.2) := by
            rw [renamed, hname, Option.filter_some, if_pos (by simpa using hkey)]
            rfl
          rw [hsome]
          change (if key = key then some (moved key e.2) else _) = some value ↔ _
          rw [if_pos rfl, Option.some.injEq]
          constructor
          · rintro rfl
            refine ⟨hkey, e, List.mem_cons_self, hname, rfl, ?_⟩
            rintro e' he' -
            rcases List.mem_cons.1 he' with rfl | he'
            · exact String.le_refl _
            · exact String.not_lt.1 (String.lt_asymm (hlt e' he'))
          · rintro ⟨-, e', he', -, rfl, hleast⟩
            rcases List.mem_cons.1 he' with rfl | he'
            · rfl
            · exact absurd (hlt e' he') (String.not_lt.2 (hleast e List.mem_cons_self hname))
      · have hiff : ((∃ e' ∈ e :: l, f e'.1 = some key ∧ value = moved key e'.2 ∧
            ∀ k ∈ e :: l, f k.1 = some key → e'.1 ≤ k.1) ↔
            ∃ e' ∈ l, f e'.1 = some key ∧ value = moved key e'.2 ∧
              ∀ k ∈ l, f k.1 = some key → e'.1 ≤ k.1) := by
          simp [hname]
        rw [hiff, ← ih hl]
        cases hren : renamed f e with
        | none => rfl
        | some e' =>
            rw [renamed, Option.map_eq_some_iff] at hren
            obtain ⟨name, hfilter, rfl⟩ := hren
            have hne : name ≠ key := by
              rintro rfl
              exact hname (Option.filter_eq_some_iff.1 hfilter).1
            change (if name = key then _ else KeyMap.lookup key _) = some value ↔ _
            rw [if_neg hne]

theorem Coherent.rename (h : v.Coherent s m) (tag : Tag) (f : String → Option String) :
    ∃ m', (v.rename tag f).Coherent s m' ∧ ∀ key value, m'.get? key = some value ↔
      key ≠ "" ∧ ∃ original found, m.get? original = some found ∧ f original = some key ∧
        value = moved key found ∧
        ∀ k w, m.get? k = some w → f k = some key → original ≤ k := by
  obtain ⟨m', hm', hlookup⟩ := renameEntries_eq f .empty m.entries
  have hget : ∀ key value, m'.get? key = some value ↔
      key ≠ "" ∧ ∃ original found, m.get? original = some found ∧ f original = some key ∧
        value = moved key found ∧
        ∀ k w, m.get? k = some w → f k = some key → original ≤ k := by
    intro key value
    rw [hlookup, KeyMap.get?_empty, Option.none_or, lookup_renamed m.sorted]
    simp only [KeyMap.get?_eq_some_iff, Prod.exists, Prod.forall]
  have hproperties : Gives (v.rename tag f).properties.run s (.ok m') := by
    refine h.properties.bindExcept ?_
    rw [hm']
    exact .ok m' s
  refine ⟨m', ⟨hproperties, ?_, ?_⟩, hget⟩
  · intro key _
    refine h.properties.bindExcept ?_
    rw [hm']
    exact .ok _ s
  · intro key value hvalue
    obtain ⟨hkey, _, _, _, _, rfl, _⟩ := (hget key value).1 hvalue
    exact ⟨hkey, rfl⟩

def Layers (s : σ) (vs : List (View (StateM σ))) (ms : List (KeyMap PropertyValue)) : Prop :=
  List.Forall₂ (fun v m => v.Coherent s m) vs ms

theorem Layers.exists_view {vs : List (View (StateM σ))} {ms : List (KeyMap PropertyValue)}
    (h : Layers s vs ms) {m : KeyMap PropertyValue} (hm : m ∈ ms) :
    ∃ v : View (StateM σ), v.Coherent s m := by
  induction h with
  | nil => cases hm
  | cons hv _ ih =>
      rcases List.mem_cons.1 hm with rfl | hm
      · exact ⟨_, hv⟩
      · exact ih hm

theorem gives_firstShown {vs : List (View (StateM σ))} {ms : List (KeyMap PropertyValue)}
    (h : Layers s vs ms) {key : String} (hkey : key ≠ "") :
    Gives (firstShown key vs).run s (.ok (ms.findSome? (·.get? key))) := by
  induction h with
  | nil => exact .ok none s
  | @cons v m vs ms hv _ ih =>
      rw [firstShown, List.findSome?_cons]
      refine (hv.get key hkey).bindExcept ?_
      cases m.get? key with
      | none => exact ih
      | some found => exact .ok (some found) s

theorem gives_overlayAll {vs : List (View (StateM σ))} {ms : List (KeyMap PropertyValue)}
    (h : Layers s vs ms) (acc : KeyMap PropertyValue) :
    Gives (overlayAll acc vs).run s (.ok (ms.foldl KeyMap.overlay acc)) := by
  induction h generalizing acc with
  | nil => exact .ok acc s
  | cons hv _ ih => exact hv.properties.bindExcept (ih _)

theorem get?_foldl_overlay (acc : KeyMap PropertyValue) (ms : List (KeyMap PropertyValue))
    (key : String) : (ms.foldl KeyMap.overlay acc).get? key =
      (ms.reverse.findSome? (·.get? key)).or (acc.get? key) := by
  induction ms generalizing acc with
  | nil => rfl
  | cons m ms ih =>
      rw [List.foldl_cons, ih, KeyMap.get?_overlay, List.reverse_cons, List.findSome?_append,
        Option.or_assoc]
      cases hm : m.get? key with
      | none => simp [hm]
      | some found => simp [hm]

theorem Layers.combine {vs : List (View (StateM σ))} {ms : List (KeyMap PropertyValue)}
    (h : Layers s vs ms) (tag : Tag) (name : String) :
    ∃ m, (View.combine tag name vs).Coherent s m ∧
      ∀ key, m.get? key = ms.reverse.findSome? (·.get? key) := by
  have hget : ∀ key, (ms.foldl KeyMap.overlay .empty).get? key =
      ms.reverse.findSome? (·.get? key) := by
    intro key
    rw [get?_foldl_overlay, KeyMap.get?_empty, Option.or_none]
  refine ⟨ms.foldl KeyMap.overlay .empty, ⟨gives_overlayAll h .empty, ?_, ?_⟩, hget⟩
  · intro key hkey
    rw [hget]
    exact gives_firstShown (List.rel_reverse h) hkey
  · intro key value hvalue
    rw [hget] at hvalue
    obtain ⟨m, hm, hfound⟩ := List.exists_of_findSome?_eq_some hvalue
    obtain ⟨v, hv⟩ := h.exists_view (List.mem_reverse.1 hm)
    exact hv.keys key value hfound

end View

end LayeredConfig
