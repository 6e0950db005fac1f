import LayeredConfig.Proofs.Derived.Composition

/-!
Laws of sections. Stripping one section and then another one is stripping a single section, the one
whose name is put together of both; a section that is not stripped is its own section, and two of
them may be taken in either order; and several sections together list what each of them lists.
-/

namespace LayeredConfig

namespace Key

theorem sectionPrefix_sectionPrefix (s : List Char) :
    sectionPrefix (sectionPrefix s) = sectionPrefix s := by
  by_cases h : s = [] ∨ s.getLast? = some '.'
  · have hsame : sectionPrefix s = s := if_pos h
    rw [hsame, hsame]
  · have hdotted : sectionPrefix s = s ++ ['.'] := if_neg h
    rw [hdotted]
    exact if_pos (.inr List.getLast?_concat)

theorem sectionPrefix_append (a b : List Char) :
    sectionPrefix (sectionPrefix a ++ b) = sectionPrefix a ++ sectionPrefix b := by
  by_cases hb : b = []
  · subst hb
    have hnil : sectionPrefix [] = [] := rfl
    rw [hnil, List.append_nil, sectionPrefix_sectionPrefix]
  · unfold sectionPrefix
    simp only [List.append_eq_nil_iff, hb, and_false, false_or, List.getLast?_append_of_ne_nil _ hb]
    by_cases hdot : b.getLast? = some '.'
    · rw [if_pos hdot, if_pos hdot]
    · rw [if_neg hdot, if_neg hdot, List.append_assoc]

theorem inSection_iff {key sect : String} :
    inSection key sect = true ↔ sectionPrefix sect.toList <+: key.toList := by
  rw [inSection, List.isPrefixOf_iff_prefix]

end Key

namespace View

variable {m : Type → Type}

/-- Two views that cannot be told apart by look-ups of keys and by listings. -/
structure ShowsAs (a b : View m) : Prop where
  get : ∀ key, key ≠ "" → a.get key = b.get key
  properties : a.properties = b.properties

theorem strip_strip (lead lead' : List Char) (shown : KeyMap PropertyValue) :
    strip lead' (strip lead shown) = strip (lead ++ lead') shown := by
  apply KeyMap.ext_get?
  intro key
  rw [get?_strip, get?_strip, get?_strip]
  by_cases hkey : key = ""
  · rw [if_pos hkey, if_pos hkey]
  · rw [if_neg hkey, if_neg hkey, if_neg (append_ne_empty lead' hkey), Option.map_map,
      String.ofList_append, String.append_assoc]
    rfl

theorem project_project [Monad m] [LawfulMonad m] (v : View m) (tag₁ tag₂ tag₃ : Tag)
    (lead lead' : List Char) : ((v.project tag₁ lead true).project tag₂ lead' true).ShowsAs
      (v.project tag₃ (lead ++ lead') true) := by
  constructor
  · intro key hkey
    rw [get_project_stripped tag₂ lead' _ hkey, get_project_stripped tag₃ (lead ++ lead') v hkey,
      get_project_stripped tag₁ lead v (append_ne_empty lead' hkey), String.ofList_append,
      String.append_assoc]
    simp only [bind_assoc, pure_bind, Option.map_map]
    rfl
  · simp only [properties_project_stripped, bind_assoc, pure_bind, strip_strip]

end View

namespace Configuration

variable {m : Type → Type} [Monad m] {σ : Type}

def part (sect : String) (shown : KeyMap PropertyValue) : KeyMap PropertyValue :=
  shown.filter fun key _ => Key.inSection key sect

theorem get?_part (sect : String) (shown : KeyMap PropertyValue) (key : String) :
    (part sect shown).get? key = if Key.inSection key sect then shown.get? key else none := by
  rw [part, KeyMap.get?_filter]
  cases Key.inSection key sect with
  | true => cases shown.get? key <;> rfl
  | false => cases shown.get? key <;> rfl

theorem part_part_comm (a b : String) (shown : KeyMap PropertyValue) :
    part b (part a shown) = part a (part b shown) := by
  apply KeyMap.ext_get?
  intro key
  simp only [get?_part]
  split <;> split <;> rfl

theorem part_part_self (sect : String) (shown : KeyMap PropertyValue) :
    part sect (part sect shown) = part sect shown := by
  apply KeyMap.ext_get?
  intro key
  simp only [get?_part]
  split <;> rfl

theorem get_inSection_kept (c : Configuration m) (tag : Tag) (sect key : String) :
    (c.inSection tag sect false).view.get key =
      if Key.inSection key sect then c.view.get key else pure none := by
  rw [Derivation.inSection_eq]
  split
  · rename_i hlead
    have hin : Key.inSection key sect = true := by
      rw [Key.inSection_iff, hlead.1]
      exact List.nil_prefix
    rw [if_pos hin]
  · rfl

theorem properties_inSection_kept [LawfulMonad m] (c : Configuration m) (tag : Tag)
    (sect : String) : (c.inSection tag sect false).view.properties = do
      return part sect (← c.view.properties) := by
  rw [Derivation.inSection_eq]
  split
  · rename_i hlead
    have hall : ∀ shown, part sect shown = shown := by
      intro shown
      apply KeyMap.ext_get?
      intro key
      have hin : Key.inSection key sect = true := by
        rw [Key.inSection_iff, hlead.1]
        exact List.nil_prefix
      rw [get?_part, if_pos hin]
    simp only [hall, bind_pure]
  · rfl

theorem inSection_inSection_stripped [LawfulMonad m] (c : Configuration m) (tag₁ tag₂ tag₃ : Tag)
    (a b : String) : ((c.inSection tag₁ a true).inSection tag₂ b true).view.ShowsAs
      (c.inSection tag₃ (String.ofList (Key.sectionPrefix a.toList) ++ b) true).view := by
  have hlead : Key.sectionPrefix (String.ofList (Key.sectionPrefix a.toList) ++ b).toList =
      Key.sectionPrefix a.toList ++ Key.sectionPrefix b.toList := by
    rw [String.toList_append, String.toList_ofList, Key.sectionPrefix_append]
  simp only [Derivation.inSection_eq, Bool.true_eq_false, and_false, if_false, withView, hlead]
  exact c.view.project_project tag₁ tag₂ tag₃ _ _

theorem inSection_inSection_self [LawfulMonad m] (c : Configuration m) (tag₁ tag₂ : Tag)
    (sect : String) : ((c.inSection tag₁ sect false).inSection tag₂ sect false).view.ShowsAs
      (c.inSection tag₁ sect false).view := by
  constructor
  · intro key _
    simp only [get_inSection_kept]
    split <;> rfl
  · simp only [properties_inSection_kept, bind_assoc, pure_bind, part_part_self]

theorem inSection_inSection_comm [LawfulMonad m] (c : Configuration m)
    (tag₁ tag₂ tag₃ tag₄ : Tag) (a b : String) :
    ((c.inSection tag₁ a false).inSection tag₂ b false).view.ShowsAs
      ((c.inSection tag₃ b false).inSection tag₄ a false).view := by
  constructor
  · intro key _
    simp only [get_inSection_kept]
    split <;> split <;> rfl
  · simp only [properties_inSection_kept, bind_assoc, pure_bind, part_part_comm a b]

/-- Each value is listed under its own key. -/
def Keyed (shown : KeyMap PropertyValue) : Prop := ∀ key v, shown.get? key = some v → v.key = key

/-- Several sections together go by the keys of the values, one section by the keys of the
entries. -/
theorem get?_union {shown : KeyMap PropertyValue} (h : Keyed shown) (sections : List String)
    (key : String) (v : PropertyValue) :
    (shown.filter fun _ found => Key.inSections found.key sections).get? key = some v ↔
      ∃ sect ∈ sections, (part sect shown).get? key = some v := by
  rw [KeyMap.get?_filter, Option.filter_eq_some_iff]
  constructor
  · rintro ⟨hv, hin⟩
    rw [h key v hv, Key.inSections, List.any_eq_true] at hin
    obtain ⟨sect, hmem, hsect⟩ := hin
    refine ⟨sect, hmem, ?_⟩
    rw [get?_part, if_pos hsect, hv]
  · rintro ⟨sect, hmem, hpart⟩
    rw [get?_part, Option.ite_none_right_eq_some] at hpart
    obtain ⟨hsect, hv⟩ := hpart
    refine ⟨hv, ?_⟩
    rw [h key v hv]
    exact List.any_eq_true.2 ⟨sect, hmem, hsect⟩

/-- The laws of sections, for every configuration, whatever its view does. Stripping `a` and then
`b` is stripping the prefix of `a` followed by `b`; what is not stripped may be taken twice or in
either order. And several sections list the entries that one of them lists, and fail with them,
provided that each value is listed under its own key. -/
theorem inSection_laws (c : Configuration (StateM σ)) :
    (∀ tag₁ tag₂ tag₃ a b, ((c.inSection tag₁ a true).inSection tag₂ b true).view.ShowsAs
      (c.inSection tag₃ (String.ofList (Key.sectionPrefix a.toList) ++ b) true).view) ∧
    (∀ tag₁ tag₂ sect, ((c.inSection tag₁ sect false).inSection tag₂ sect false).view.ShowsAs
      (c.inSection tag₁ sect false).view) ∧
    (∀ tag₁ tag₂ tag₃ tag₄ a b,
      ((c.inSection tag₁ a false).inSection tag₂ b false).view.ShowsAs
        ((c.inSection tag₃ b false).inSection tag₄ a false).view) ∧
    ∀ tag sections s,
      (∀ e t, c.view.properties.run.run s = (.error e, t) →
        (c.inSections tag sections).view.properties.run.run s = (.error e, t) ∧
        ∀ tag₁ sect, (c.inSection tag₁ sect false).view.properties.run.run s = (.error e, t)) ∧
      ∀ shown t, c.view.properties.run.run s = (.ok shown, t) → Keyed shown →
        ∃ (union : KeyMap PropertyValue) (parts : String → KeyMap PropertyValue),
          (c.inSections tag sections).view.properties.run.run s = (.ok union, t) ∧
          (∀ tag₁ sect,
            (c.inSection tag₁ sect false).view.properties.run.run s = (.ok (parts sect), t)) ∧
          ∀ key v, union.get? key = some v ↔
            ∃ sect ∈ sections, (parts sect).get? key = some v := by
  refine ⟨c.inSection_inSection_stripped, c.inSection_inSection_self,
    c.inSection_inSection_comm, ?_⟩
  intro tag sections s
  constructor
  · intro e t hfails
    refine ⟨run_bind_of_error hfails, fun tag₁ sect => ?_⟩
    rw [properties_inSection_kept]
    exact run_bind_of_error hfails
  · intro shown t hshown hkeyed
    refine ⟨_, fun sect => part sect shown, run_bind_of_ok hshown, fun tag₁ sect => ?_,
      get?_union hkeyed sections⟩
    rw [properties_inSection_kept]
    exact run_bind_of_ok hshown

end Configuration

namespace Sample

/-- Sections that overlap list what lies in several of them. -/
theorem shelf_sections_listed :
    ∃ union, ((shelf true).inSections 6 ["app", "", "app."]).view.properties.run.run shelves =
        (.ok union, shelves) ∧
      union.get? "app.host" = some ⟨"app.host", some "a", "top", .empty⟩ := by
  obtain ⟨-, -, -, hlisted⟩ := (shelf true).inSection_laws
  have hshown : (shelf true).view.properties.run.run shelves = (.ok (shelfContents true), shelves) :=
    rfl
  have hkeyed : Configuration.Keyed (shelfContents true) := by
    intro key v hv
    have hentries : ∀ e ∈ (shelfContents true).entries, e.2.key = e.1 := by decide
    exact hentries (key, v) (KeyMap.get?_eq_some_iff.1 hv)
  obtain ⟨union, parts, hunion, hparts, hget⟩ :=
    (hlisted 6 ["app", "", "app."] shelves).2 _ _ hshown hkeyed
  refine ⟨union, hunion, (hget _ _).2 ⟨"", by decide, ?_⟩⟩
  have hwhole : parts "" = shelfContents true := by
    have hsame := (hparts 6 "").symm.trans hshown
    exact Except.ok.inj (Prod.mk.inj hsame).1
  rw [hwhole]
  rfl

end Sample

end LayeredConfig
