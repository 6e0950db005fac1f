import LayeredConfig.Proofs.Lookup.Steady

/-!
Property values and their JSON form. However a value has been made, its key and its source are not
empty, and its JSON form is read as this value. What the members of an object state is read if and
only if it is such a value.
-/

namespace LayeredConfig.PropertyValue

/-- The values that can be made, one way after another. -/
inductive Obtainable : PropertyValue → Prop
  | of {key value source : String} {v : PropertyValue} :
      PropertyValue.of key value source = .ok v → Obtainable v
  | absent {key source : String} {v : PropertyValue} :
      PropertyValue.absent key source = .ok v → Obtainable v
  | withMeta {v : PropertyValue} (name value : String) :
      Obtainable v → Obtainable (v.withMeta name value)
  | withValue {v : PropertyValue} (value : String) : Obtainable v → Obtainable (v.withValue value)
  | withKey {key : String} {v w : PropertyValue} :
      Obtainable v → v.withKey key = .ok w → Obtainable w
  | read {json : Json} {v : PropertyValue} : ofJson json = .ok v → Obtainable v

/-- What a member that may be missing states as the payload. -/
inductive StatesPayload : Option Json → Option String → Prop
  | missing : StatesPayload none none
  | null : StatesPayload (some .null) none
  | text (s : String) : StatesPayload (some (.text s)) (some s)

def textMembers (entries : List (String × String)) : List (String × Json) :=
  entries.map fun e => (e.1, .text e.2)

/-- What a member that may be missing states as the metadata; the last entry with a name counts. -/
inductive StatesMetadata : Option Json → KeyMap String → Prop
  | missing : StatesMetadata none .empty
  | given (entries : List (String × String)) :
      StatesMetadata (some (.object (textMembers entries))) (.ofList entries)

/-- The members of an object have the right types and state these key, payload, source and
metadata, which may be empty. -/
structure Describes (members : List (String × Json)) (v : PropertyValue) : Prop where
  key : Json.member? members "key" = some (.text v.key)
  value : StatesPayload (Json.member? members "value") v.value
  source : Json.member? members "source" = some (.text v.source)
  metadata : StatesMetadata (Json.member? members "meta") v.metadata

theorem readText_eq_ok_iff {json : Json} {s : String} : readText json = .ok s ↔ json = .text s := by
  cases json <;> simp [readText]

theorem readOptional_eq_ok_iff {json : Option Json} {payload : Option String} :
    readOptional (json.getD .null) = .ok payload ↔ StatesPayload json payload := by
  constructor
  · intro h
    cases json with
    | none =>
        cases h
        exact .missing
    | some json =>
        cases json with
        | null =>
            cases h
            exact .null
        | text s =>
            cases h
            exact .text s
        | _ => cases h
  · rintro (_ | _ | s) <;> rfl

theorem readTexts_eq_ok_iff {acc m : KeyMap String} {members : List (String × Json)} :
    readTexts acc members = .ok m ↔
      ∃ entries, members = textMembers entries ∧ m = acc.insertAll entries := by
  constructor
  · intro h
    induction members generalizing acc with
    | nil =>
        cases h
        exact ⟨[], rfl, rfl⟩
    | cons member rest ih =>
        obtain ⟨s, hs, hrest⟩ := bind_eq_ok h
        obtain ⟨entries, rfl, rfl⟩ := ih hrest
        refine ⟨(member.1, s) :: entries, ?_, rfl⟩
        change member :: _ = (member.1, .text s) :: _
        rw [← readText_eq_ok_iff.1 hs]
        rfl
  · rintro ⟨entries, rfl, rfl⟩
    induction entries generalizing acc with
    | nil => rfl
    | cons e entries ih => exact ih

theorem readMeta_eq_ok_iff {json : Option Json} {m : KeyMap String} :
    readMeta (json.getD (.object [])) = .ok m ↔ StatesMetadata json m := by
  constructor
  · intro h
    cases json with
    | none =>
        cases h
        exact .missing
    | some json =>
        cases json with
        | object members =>
            obtain ⟨entries, rfl, rfl⟩ := readTexts_eq_ok_iff.1 h
            exact .given entries
        | _ => cases h
  · rintro (_ | entries)
    · rfl
    · exact readTexts_eq_ok_iff.2 ⟨entries, rfl, rfl⟩

theorem valid_of_create {key source : String} {value : Option String} {v : PropertyValue}
    (h : create key value source = .ok v) : v.Valid := by
  obtain ⟨hkey, hsource, rfl⟩ := create_eq_ok_iff.1 h
  exact ⟨hkey, hsource⟩

theorem assemble_of_valid {v : PropertyValue} (h : v.Valid) :
    assemble v.key v.value v.source v.metadata = .ok v := by
  have hcreate : create v.key v.value v.source = .ok ⟨v.key, v.value, v.source, .empty⟩ :=
    create_eq_ok_iff.2 ⟨h.1, h.2, rfl⟩
  rw [assemble, hcreate]

theorem assemble_of_not_valid {v : PropertyValue} (h : ¬ v.Valid) :
    ∃ e, assemble v.key v.value v.source v.metadata = .error (.rejected e) := by
  rw [assemble]
  cases hcreate : create v.key v.value v.source with
  | error e => exact ⟨e, rfl⟩
  | ok w =>
      obtain ⟨hkey, hsource, -⟩ := create_eq_ok_iff.1 hcreate
      exact absurd ⟨hkey, hsource⟩ h

theorem valid_of_assemble {key source : String} {value : Option String} {metadata : KeyMap String}
    {v : PropertyValue} (h : assemble key value source metadata = .ok v) : v.Valid := by
  rw [assemble] at h
  cases hcreate : create key value source with
  | error e =>
      rw [hcreate] at h
      cases h
  | ok w =>
      rw [hcreate] at h
      cases h
      exact (valid_of_create hcreate : w.Valid)

theorem Describes.ofJson_eq {members : List (String × Json)} {v : PropertyValue}
    (h : Describes members v) :
    ofJson (.object members) = assemble v.key v.value v.source v.metadata := by
  have hvalue := readOptional_eq_ok_iff.2 h.value
  have hmetadata := readMeta_eq_ok_iff.2 h.metadata
  simp only [ofJson, h.key, h.source, readText, hvalue, hmetadata]
  rfl

theorem valid_of_ofJson {json : Json} {v : PropertyValue} (h : ofJson json = .ok v) : v.Valid := by
  cases json with
  | object members =>
      rw [ofJson] at h
      split at h
      · split at h
        · obtain ⟨key, -, h⟩ := bind_eq_ok h
          obtain ⟨value, -, h⟩ := bind_eq_ok h
          obtain ⟨source, -, h⟩ := bind_eq_ok h
          obtain ⟨metadata, -, h⟩ := bind_eq_ok h
          exact valid_of_assemble h
        · cases h
      · cases h
  | list items =>
      rcases items with _ | ⟨key, _ | ⟨value, _ | ⟨source, rest⟩⟩⟩
      · cases h
      · cases h
      · cases h
      · obtain ⟨key, -, h⟩ := bind_eq_ok h
        obtain ⟨value, -, h⟩ := bind_eq_ok h
        obtain ⟨source, -, h⟩ := bind_eq_ok h
        rcases rest with _ | ⟨metadata, _ | ⟨more, rest⟩⟩
        · exact valid_of_assemble h
        · obtain ⟨metadata, -, h⟩ := bind_eq_ok h
          exact valid_of_assemble h
        · cases h
  | _ => cases h

theorem describes_toJson (v : PropertyValue) :
    ∃ members, v.toJson = .object members ∧ Describes members v := by
  refine ⟨_, rfl, rfl, ?_, rfl, ?_⟩
  · change StatesPayload (some ((v.value.map Json.text).getD .null)) v.value
    cases v.value with
    | none => exact .null
    | some s => exact .text s
  · by_cases hempty : v.metadata.isEmpty = true
    · rw [if_pos hempty]
      have hentries : v.metadata = .empty := KeyMap.ext (List.isEmpty_iff.1 hempty)
      rw [hentries]
      exact .missing
    · rw [if_neg hempty]
      have hgiven := StatesMetadata.given v.metadata.entries
      rwa [KeyMap.ofList_entries] at hgiven

theorem valid_of_withKey {key : String} {v w : PropertyValue} (hv : v.Valid)
    (h : v.withKey key = .ok w) : w.Valid := by
  rw [withKey] at h
  by_cases hkey : key = ""
  · rw [hkey] at h
    cases h
  · rw [ConfigError.requireKey_ok hkey] at h
    cases h
    exact ⟨hkey, hv.2⟩

theorem Obtainable.valid {v : PropertyValue} (h : Obtainable v) : v.Valid := by
  induction h with
  | of h => exact valid_of_create h
  | absent h => exact valid_of_create h
  | withMeta name value _ ih => exact ih
  | withValue value _ ih => exact ih
  | withKey _ h ih => exact valid_of_withKey ih h
  | read h => exact valid_of_ofJson h

/-- What the members of an object state is read if it is a valid value, and else it is rejected,
whatever else stands in the object. -/
theorem ofJson_of_describes {members : List (String × Json)} {v : PropertyValue}
    (h : Describes members v) :
    (v.Valid → ofJson (.object members) = .ok v) ∧
      (¬ v.Valid → ∃ e, ofJson (.object members) = .error (.rejected e)) := by
  rw [h.ofJson_eq]
  exact ⟨assemble_of_valid, assemble_of_not_valid⟩

theorem ofJson_toJson {v : PropertyValue} (h : v.Valid) : ofJson v.toJson = .ok v := by
  obtain ⟨members, hmembers, hdescribes⟩ := describes_toJson v
  rw [hmembers]
  exact (ofJson_of_describes hdescribes).1 h

/-- The values that can be made are the ones whose key and source are not empty, and each of them is
what its JSON form is read as. An object whose members have the right types is read if and only if
the key and the source that it states are not empty; a missing payload is read like null, and
missing metadata as none. -/
theorem serialization_laws :
    (∀ v, Obtainable v ↔ v.key ≠ "" ∧ v.source ≠ "") ∧
    (∀ v, Obtainable v → ofJson v.toJson = .ok v) ∧
    ∀ members v, Describes members v →
      ((∃ w, ofJson (.object members) = .ok w) ↔ v.key ≠ "" ∧ v.source ≠ "") ∧
      ∀ w, ofJson (.object members) = .ok w → w = v := by
  refine ⟨?_, fun v hv => ofJson_toJson hv.valid, ?_⟩
  · intro v
    exact ⟨Obtainable.valid, fun hv => .read (ofJson_toJson hv)⟩
  · intro members v h
    obtain ⟨hread, hrejected⟩ := ofJson_of_describes h
    by_cases hv : v.Valid
    · rw [hread hv]
      refine ⟨⟨fun _ => hv, fun _ => ⟨v, rfl⟩⟩, ?_⟩
      rintro w ⟨⟩
      rfl
    · obtain ⟨e, he⟩ := hrejected hv
      rw [he]
      exact ⟨⟨nofun, fun h => absurd h hv⟩, nofun⟩

/-- A value that has been made and changed, and an object without payload and metadata, but with a
member that nobody knows. -/
theorem annotated_serialized :
    (∃ v w, of "a" "1" "test" = .ok v ∧ (v.withMeta "m" "n").withKey "b" = .ok w ∧
      Obtainable w ∧ ofJson w.toJson = .ok w) ∧
    let members := [("source", Json.text "s"), ("extra", .bool true), ("key", .text "a")]
    Describes members ⟨"a", none, "s", .empty⟩ ∧
      ∃ w, ofJson (.object members) = .ok w ∧ w = ⟨"a", none, "s", .empty⟩ := by
  obtain ⟨-, hback, hread⟩ := serialization_laws
  refine ⟨?_, ?_⟩
  · have hof : of "a" "1" "test" = .ok ⟨"a", some "1", "test", .empty⟩ := rfl
    have hkey : (withMeta ⟨"a", some "1", "test", .empty⟩ "m" "n").withKey "b" =
        .ok ⟨"b", some "1", "test", .ofList [("m", "n")]⟩ := rfl
    have hmade := Obtainable.withKey (.withMeta "m" "n" (.of hof)) hkey
    exact ⟨_, _, hof, hkey, hmade, hback _ hmade⟩
  · intro members
    have h : Describes members ⟨"a", none, "s", .empty⟩ := ⟨rfl, .missing, rfl, .missing⟩
    obtain ⟨hsucceeds, hvalue⟩ := hread members _ h
    obtain ⟨w, hw⟩ := hsucceeds.2 ⟨by decide, by decide⟩
    exact ⟨h, w, hw, hvalue w hw⟩

end LayeredConfig.PropertyValue
