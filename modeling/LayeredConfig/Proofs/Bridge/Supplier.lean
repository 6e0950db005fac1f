import LayeredConfig.Proofs.Bridge.Taking
import LayeredConfig.Sample.Host

/-!
The source that the native view of a host configuration names for a value. The host answers from the
first source that holds a key. The view looks for the highest ordinal instead, and of several
sources that hold the key with this ordinal it names the last one.
-/

namespace LayeredConfig

namespace Bridge

variable {σ : Type}

/-- A source with the ordinal and the texts that it is known to have. -/
structure KnownSource (σ : Type) where
  source : HostSource (StateM σ)
  ordinal : Int
  text : String → Option String

namespace KnownSource

def name (l : KnownSource σ) : String := l.source.name

/-- The last one of the sources that hold a key with the same ordinal as the first one. -/
def lastTied (key : String) (l : KnownSource σ) : List (KnownSource σ) → KnownSource σ
  | [] => l
  | b :: ls => if b.ordinal = l.ordinal ∧ (b.text key).isSome then lastTied key b ls
    else lastTied key l ls

/-- The value that is shown for a key: the text of the first source that holds it, with the name of
the last one of the same ordinal. -/
def shown (key : String) : List (KnownSource σ) → Option PropertyValue
  | [] => none
  | l :: ls =>
    match l.text key with
    | some text => some ⟨key, some text, (lastTied key l ls).name, .empty⟩
    | none => shown key ls

variable {key : String} {l : KnownSource σ} {ls : List (KnownSource σ)}

theorem lastTied_mem (key : String) (l : KnownSource σ) (ls : List (KnownSource σ)) :
    lastTied key l ls ∈ l :: ls := by
  induction ls generalizing l with
  | nil => exact List.mem_cons_self
  | cons b ls ih =>
      rw [lastTied]
      split
      · exact List.mem_cons_of_mem l (ih b)
      · rcases List.mem_cons.1 (ih l) with heq | hmem
        · rw [heq]
          exact List.mem_cons_self
        · exact List.mem_cons_of_mem l (List.mem_cons_of_mem b hmem)

theorem shown_of_first {front : List (KnownSource σ)} {text : String}
    (hfront : ∀ a ∈ front, a.text key = none) (htext : l.text key = some text) :
    shown key (front ++ l :: ls) = some ⟨key, some text, (lastTied key l ls).name, .empty⟩ := by
  induction front with
  | nil => rw [List.nil_append, shown, htext]
  | cons a front ih =>
      obtain ⟨ha, hfront⟩ := List.forall_mem_cons.1 hfront
      rw [List.cons_append, shown, ha]
      exact ih hfront

theorem shown_of_none (h : ∀ b ∈ ls, b.text key = none) : shown key ls = none := by
  induction ls with
  | nil => rfl
  | cons b ls ih =>
      obtain ⟨hb, hls⟩ := List.forall_mem_cons.1 h
      rw [shown, hb]
      exact ih hls

theorem name_lastTied_iff (hdistinct : ((l :: ls).map name).Nodup) :
    (lastTied key l ls).name = l.name ↔ ∀ b ∈ ls, b.ordinal = l.ordinal → b.text key = none := by
  induction ls with
  | nil => simp [lastTied]
  | cons b ls ih =>
      rw [List.map_cons, List.map_cons, List.nodup_cons, List.nodup_cons] at hdistinct
      obtain ⟨hl, hb, hls⟩ := hdistinct
      rw [List.mem_cons, not_or] at hl
      rw [lastTied]
      split
      · rename_i htied
        -- Whatever comes last is one of the later ones, which have other names.
        refine ⟨fun hname => ?_, fun h => ?_⟩
        · have hmem := List.mem_map_of_mem (f := name) (lastTied_mem key b ls)
          rw [hname, List.map_cons] at hmem
          rcases List.mem_cons.1 hmem with heq | hmem
          · exact absurd heq hl.1
          · exact absurd hmem hl.2
        · rw [h b List.mem_cons_self htied.1] at htied
          cases htied.2
      · rename_i htied
        rw [ih (List.nodup_cons.2 ⟨hl.2, hls⟩), List.forall_mem_cons]
        refine ⟨fun h => ⟨fun hordinal => ?_, h⟩, And.right⟩
        rw [not_and, Option.not_isSome_iff_eq_none] at htied
        exact htied hordinal

end KnownSource

open KnownSource

variable [Setoid σ]

/-- A source answers as it is known to, and can be taken over as a provider. -/
structure KnownSource.Answers (l : KnownSource σ) (s : σ) : Prop where
  named : l.name ≠ ""
  keyed : l.text "" = none
  ordinal : Gives l.source.ordinal s l.ordinal
  value : ∀ key, Gives (l.source.value key) s (l.text key)
  provider : ∀ p, l.source.provider = some p → p.name = l.name ∧ ∃ n, Gives p.ordinal s n

/-- A host configuration that lists sources by descending ordinal, enumerates their keys and answers
from the first one that holds a key. -/
structure Listing (h : HostConfig (StateM σ)) (listed : List (KnownSource σ)) (s : σ) : Prop where
  foreign : h.native = none
  sources : Gives h.sources s (listed.map (·.source))
  known : ∀ l ∈ listed, l.Answers s
  distinct : (listed.map name).Nodup
  descending : listed.Pairwise fun a b => b.ordinal ≤ a.ordinal
  value : ∀ key, Gives (h.value key) s (listed.findSome? (·.text key))
  enumerates : ∃ names, Gives h.propertyNames s names ∧
    ∀ l ∈ listed, ∀ key, (l.text key).isSome → key ∈ names

variable {key : String} {l : KnownSource σ} {listed ls : List (KnownSource σ)} {s : σ}
  {h : HostConfig (StateM σ)}

theorem gives_supplier_tied (hknown : ∀ b ∈ ls, b.Answers s)
    (hbelow : ∀ b ∈ ls, b.ordinal ≤ l.ordinal) :
    Gives (supplier key (some (l.ordinal, l.name)) (ls.map (·.source))) s
      (some (l.ordinal, (lastTied key l ls).name)) := by
  induction ls generalizing l with
  | nil => exact .pure _ s
  | cons b ls ih =>
      obtain ⟨hb, hls⟩ := List.forall_mem_cons.1 hknown
      obtain ⟨hle, hrest⟩ := List.forall_mem_cons.1 hbelow
      rw [List.map_cons, supplier]
      refine (hb.value key).bind ?_
      rw [lastTied]
      cases htext : b.text key with
      | none =>
          rw [if_neg (by simp)]
          exact ih hls hrest
      | some text =>
          refine hb.ordinal.bind ?_
          by_cases htop : l.ordinal ≤ b.ordinal
          · have hsame : b.ordinal = l.ordinal := Int.le_antisymm hle htop
            dsimp only
            rw [if_pos htop, if_pos ⟨hsame, rfl⟩, ← hsame]
            exact ih hls (hsame ▸ hrest)
          · have hne : b.ordinal ≠ l.ordinal := fun hsame => htop (Int.le_of_eq hsame.symm)
            dsimp only
            rw [if_neg htop, if_neg fun htied => hne htied.1]
            exact ih hls hrest

theorem gives_sourceOf {front : List (KnownSource σ)} {text : String}
    (hknown : ∀ b ∈ front ++ l :: ls, b.Answers s) (hfront : ∀ a ∈ front, a.text key = none)
    (htext : l.text key = some text) (hbelow : ∀ b ∈ ls, b.ordinal ≤ l.ordinal) :
    Gives (sourceOf key ((front ++ l :: ls).map (·.source))) s (lastTied key l ls).name := by
  have hsupplier : Gives (supplier key none ((front ++ l :: ls).map (·.source))) s
      (some (l.ordinal, (lastTied key l ls).name)) := by
    induction front with
    | nil =>
        obtain ⟨hl, hls⟩ := List.forall_mem_cons.1 hknown
        rw [List.nil_append, List.map_cons, supplier]
        refine (hl.value key).bind ?_
        rw [htext]
        exact hl.ordinal.bind (gives_supplier_tied hls hbelow)
    | cons a front ih =>
        obtain ⟨ha, hrest⟩ := List.forall_mem_cons.1 hknown
        obtain ⟨hnone, hfront⟩ := List.forall_mem_cons.1 hfront
        rw [List.cons_append, List.map_cons, supplier]
        refine (ha.value key).bind ?_
        rw [hnone]
        exact ih hrest hfront
  exact hsupplier.bind (.pure _ s)

/-- The first source that holds a key, with what is to be shown for it. -/
theorem Listing.first_holder (hl : Listing h listed s) {text : String}
    (htext : listed.findSome? (·.text key) = some text) :
    ∃ name, Gives (sourceOf key (listed.map (·.source))) s name ∧
      PropertyValue.of key text name = .ok ⟨key, some text, name, .empty⟩ ∧
        shown key listed = some ⟨key, some text, name, .empty⟩ := by
  obtain ⟨front, l, ls, rfl, hholds, hfront⟩ := List.findSome?_eq_some_iff.1 htext
  have hknown := hl.known
  have hbelow := (List.pairwise_cons.1 (List.pairwise_append.1 hl.descending).2.1).1
  have hkey : key ≠ "" := by
    rintro rfl
    rw [(hknown l (by simp)).keyed] at hholds
    cases hholds
  have hnamed : (lastTied key l ls).name ≠ "" :=
    (hknown _ (List.mem_append_right front (lastTied_mem key l ls))).named
  refine ⟨(lastTied key l ls).name, gives_sourceOf hknown hfront hholds hbelow, ?_,
    shown_of_first hfront hholds⟩
  exact PropertyValue.create_eq_ok_iff.2 ⟨hkey, hnamed, rfl⟩

theorem Listing.gives_get (hl : Listing h listed s) (tag : Tag) (key : String) :
    Gives ((hostView tag h).get key).run s (.ok (shown key listed)) := by
  refine (hl.value key).lift.bindExcept ?_
  cases htext : listed.findSome? (·.text key) with
  | none =>
      rw [shown_of_none (List.findSome?_eq_none_iff.1 htext)]
      exact .ok none s
  | some text =>
      obtain ⟨name, hname, hvalue, hshown⟩ := hl.first_holder htext
      rw [hshown]
      refine hl.sources.lift.bindExcept (hname.lift.bindExcept ?_)
      exact (gives_of hvalue).bindExcept (.ok _ s)

theorem Listing.gives_hostEntries (hl : Listing h listed s) (names : List String)
    (acc : KeyMap PropertyValue) :
    ∃ m, Gives (hostEntries h (listed.map (·.source)) acc names).run s (.ok m) ∧
      ∀ key, m.get? key = (if key ∈ names then shown key listed else none).or (acc.get? key) := by
  induction names generalizing acc with
  | nil => exact ⟨acc, .ok acc s, fun key => by simp⟩
  | cons name names ih =>
      cases htext : listed.findSome? (·.text name) with
      | none =>
          obtain ⟨m, hgives, hm⟩ := ih acc
          refine ⟨m, ?_, ?_⟩
          · rw [hostEntries]
            refine (hl.value name).lift.bindExcept ?_
            rw [htext]
            exact hgives
          · intro key
            have hnone := shown_of_none (List.findSome?_eq_none_iff.1 htext)
            rw [hm]
            by_cases hkey : key = name
            · subst hkey
              simp [hnone]
            · simp [hkey]
      | some text =>
          obtain ⟨source, hsource, hvalue, hshown⟩ := hl.first_holder htext
          obtain ⟨m, hgives, hm⟩ := ih (acc.insert name ⟨name, some text, source, .empty⟩)
          refine ⟨m, ?_, ?_⟩
          · rw [hostEntries]
            refine (hl.value name).lift.bindExcept ?_
            rw [htext]
            exact hsource.lift.bindExcept ((gives_of hvalue).bindExcept hgives)
          · intro key
            rw [hm, KeyMap.get?_insert]
            by_cases hkey : key = name
            · subst hkey
              by_cases hmem : key ∈ names
              · simp [hmem, hshown]
              · simp [hmem, hshown]
            · simp [hkey, Ne.symm hkey]

theorem Listing.gives_properties (hl : Listing h listed s) (tag : Tag) :
    ∃ m, Gives (hostView tag h).properties.run s (.ok m) ∧ ∀ key, m.get? key = shown key listed := by
  obtain ⟨names, hnames, hall⟩ := hl.enumerates
  obtain ⟨m, hgives, hm⟩ := hl.gives_hostEntries names .empty
  refine ⟨m, hl.sources.lift.bindExcept (hnames.lift.bindExcept hgives), ?_⟩
  intro key
  rw [hm, KeyMap.get?_empty, Option.or_none]
  split
  · rfl
  · rename_i hmem
    refine (shown_of_none ?_).symm
    intro l hlisted
    cases htext : l.text key with
    | none => rfl
    | some text =>
        refine absurd (hall l hlisted key ?_) hmem
        rw [htext]
        rfl

theorem KnownSource.Answers.settled (hl : l.Answers s) : l.source.Settled s :=
  ⟨hl.named, ⟨_, hl.ordinal⟩, fun key => ⟨_, hl.value key⟩, hl.provider⟩

theorem Listing.gives_taken (hl : Listing h listed s) (tag : Tag) :
    ∃ context, Gives (toNativeConfig tag h).run s (.ok ⟨context, hostView tag h⟩) := by
  refine gives_toNativeConfig hl.foreign hl.sources ?_ ?_ tag
  · intro source hsource
    obtain ⟨l, hlisted, rfl⟩ := List.mem_map.1 hsource
    exact (hl.known l hlisted).settled
  · rw [List.map_map]
    exact hl.distinct

theorem Listing.gives_getValue (hl : Listing h listed s) (tag : Tag) (context : Context (StateM σ))
    (hkey : key ≠ "") :
    Gives ((Configuration.mk context (hostView tag h)).getValue key).run s
      (.ok (shown key listed)) :=
  (gives_requireKey hkey).bindExcept (hl.gives_get tag key)

/-- The native view of a host configuration, which answers from the first source that holds a key.
The view has all the host's texts, under the same keys in both ways of asking. The source that it
names is the last one that holds the key with the ordinal of the first one: it is the one that
supplied the text if and only if no later source of this ordinal holds the key too. -/
theorem toNativeConfig_supplier (hl : Listing h listed s) (tag : Tag) :
    ∃ c all, Gives (toNativeConfig tag h).run s (.ok c) ∧
      Gives c.getPropertyValues.run s (.ok all) ∧
      (∀ key, key ≠ "" → Gives (c.getValue key).run s (.ok (all.get? key))) ∧
      (∀ key, (∀ l ∈ listed, l.text key = none) → all.get? key = none) ∧
      ∀ key front l back text, listed = front ++ l :: back → (∀ a ∈ front, a.text key = none) →
        l.text key = some text →
          ∃ source, all.get? key = some ⟨key, some text, source, .empty⟩ ∧
            source = (lastTied key l back).name ∧
              (source = l.name ↔ ∀ b ∈ back, b.ordinal = l.ordinal → b.text key = none) := by
  obtain ⟨context, htaken⟩ := hl.gives_taken tag
  obtain ⟨all, hall, hshown⟩ := hl.gives_properties tag
  refine ⟨⟨context, hostView tag h⟩, all, htaken, hall, ?_, ?_, ?_⟩
  · intro key hkey
    rw [hshown]
    exact hl.gives_getValue tag context hkey
  · intro key hnone
    rw [hshown, shown_of_none hnone]
  · rintro key front l back text rfl hfront htext
    have hdistinct := hl.distinct
    rw [List.map_append, List.nodup_append] at hdistinct
    exact ⟨_, (hshown key).trans (shown_of_first hfront htext), rfl,
      name_lastTied_iff hdistinct.2.1⟩

end Bridge

namespace Sample

open Bridge

/-- States that are alike are the same: the sample sources only read. -/
def unmoved : Setoid Unit := ⟨Eq, ⟨fun _ => rfl, Eq.symm, Eq.trans⟩⟩

def knownSource (tag : Tag) (name : String) (ordinal : Int) (texts : KeyMap String) :
    KnownSource Unit := ⟨hostSource tag name ordinal texts, ordinal, texts.get?⟩

/-- Two sources that hold one key, with a given ordinal of the second one. -/
def pair (ordinal : Int) : List (KnownSource Unit) :=
  [knownSource 0 "first" 5 (.ofList [("k", "1")]),
    knownSource 1 "second" ordinal (.ofList [("k", "2"), ("l", "3")])]

def pairHost (ordinal : Int) : HostConfig (StateM Unit) :=
  outcome (hostConfig 2 ((pair ordinal).map (·.source)) ⟨false, false⟩) ()

theorem sorted_pair {ordinal : Int} (h : ordinal ≤ 5) :
    ((outcome (rank ((pair ordinal).map (·.source))) ()).mergeSort fun a b => b.1 ≤ a.1).map (·.2) =
      (pair ordinal).map (·.source) := by
  rw [List.mergeSort_of_pairwise]
  · rfl
  · change List.Pairwise _ [(5, _), (ordinal, _)]
    simpa using h

theorem gives_firstValue {σ : Type} [Setoid σ] {s : σ} {ls : List (KnownSource σ)} {key : String}
    (h : ∀ l ∈ ls, Gives (l.source.value key) s (l.text key)) :
    Gives (firstValue key (ls.map (·.source))) s (ls.findSome? (·.text key)) := by
  induction ls with
  | nil => exact .pure none s
  | cons l ls ih =>
      obtain ⟨hl, hls⟩ := List.forall_mem_cons.1 h
      rw [List.map_cons, firstValue, List.findSome?_cons]
      refine hl.bind ?_
      cases l.text key with
      | none => exact ih hls
      | some text => exact .pure (some text) s

theorem answers_knownSource (tag : Tag) {name : String} (ordinal : Int) {texts : KeyMap String}
    (hname : name ≠ "") (hkeys : texts.get? "" = none) :
    letI := unmoved; (knownSource tag name ordinal texts).Answers () := by
  let := unmoved
  exact ⟨hname, hkeys, .pure _ (), fun _ => .pure _ (), nofun⟩

theorem listing_pairHost {ordinal : Int} (h : ordinal ≤ 5) :
    letI := unmoved; Listing (pairHost ordinal) (pair ordinal) () := by
  let := unmoved
  have hsources : (pairHost ordinal).sources = pure ((pair ordinal).map (·.source)) := by
    rw [← sorted_pair h]
    rfl
  have hvalue : ∀ key, (pairHost ordinal).value key =
      firstValue key ((pair ordinal).map (·.source)) := by
    intro key
    rw [← sorted_pair h]
    rfl
  have hnames : (pairHost ordinal).propertyNames =
      allNames .empty ((pair ordinal).map (·.source)) := by
    rw [← sorted_pair h]
    rfl
  have hknown : ∀ l ∈ pair ordinal, l.Answers () := List.forall_mem_cons.2
    ⟨answers_knownSource 0 5 (by decide) rfl,
      List.forall_mem_singleton.2 (answers_knownSource 1 ordinal (by decide) rfl)⟩
  refine ⟨rfl, hsources ▸ .pure _ (), hknown, ?_, ?_, ?_, ["k", "l"], ?_, ?_⟩
  · change ["first", "second"].Nodup
    decide
  · simpa [pair, knownSource] using h
  · intro key
    rw [hvalue]
    exact gives_firstValue fun l hlisted => (hknown l hlisted).value key
  · rw [hnames]
    exact .pure ["k", "l"] ()
  · refine List.forall_mem_cons.2 ⟨?_, List.forall_mem_singleton.2 ?_⟩
    · intro key hkey
      obtain ⟨text, htext⟩ := Option.isSome_iff_exists.1 hkey
      have hmem : (key, text) ∈ [("k", "1")] := KeyMap.get?_eq_some_iff.1 htext
      exact List.mem_append_left ["l"] (List.mem_map_of_mem (f := Prod.fst) hmem)
    · intro key hkey
      obtain ⟨text, htext⟩ := Option.isSome_iff_exists.1 hkey
      have hmem : (key, text) ∈ [("k", "2"), ("l", "3")] := KeyMap.get?_eq_some_iff.1 htext
      exact List.mem_map_of_mem (f := Prod.fst) hmem

/-- The second source does not get in the way if its ordinal is lower. -/
theorem pairHost_names_first : letI := unmoved
    ∃ c, Gives (toNativeConfig 3 (pairHost 4)).run () (.ok c) ∧
      Gives (c.getValue "k").run () (.ok (some ⟨"k", some "1", "first", .empty⟩)) := by
  let := unmoved
  obtain ⟨c, all, hc, -, hvalue, -, hsource⟩ :=
    toNativeConfig_supplier (listing_pairHost (show (4 : Int) ≤ 5 by decide)) 3
  obtain ⟨source, hshown, -, hfirst⟩ := hsource "k" [] (knownSource 0 "first" 5 _)
    [knownSource 1 "second" 4 _] "1" rfl nofun rfl
  have hname : source = "first" := hfirst.2 (by simp [knownSource])
  subst hname
  exact ⟨c, hc, hshown ▸ hvalue "k" (by decide)⟩

/-- Of two sources with one ordinal the host asks the first one, and the view names the second one. -/
theorem pairHost_names_second : letI := unmoved
    Gives ((pairHost 5).value "k") () (some "1") ∧
      ∃ c all, Gives (toNativeConfig 3 (pairHost 5)).run () (.ok c) ∧
        Gives (c.getValue "k").run () (.ok (some ⟨"k", some "1", "second", .empty⟩)) ∧
        Gives c.getPropertyValues.run () (.ok all) ∧
        all.get? "k" = some ⟨"k", some "1", "second", .empty⟩ := by
  let := unmoved
  have hl := listing_pairHost (Int.le_refl 5)
  obtain ⟨context, htaken⟩ := hl.gives_taken 3
  obtain ⟨all, hall, hshown⟩ := hl.gives_properties 3
  exact ⟨hl.value "k", _, all, htaken, hl.gives_getValue 3 context (by decide), hall, hshown "k"⟩

end Sample

end LayeredConfig
