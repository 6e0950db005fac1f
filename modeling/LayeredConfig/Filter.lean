import LayeredConfig.PropertyValue

/-!
Filters: functions that change a value after it has been picked, or hide it.
-/

namespace LayeredConfig

/-- What a filter sees: the key asked for, unfiltered look-ups, and in an enumeration the entries
that are already filtered. -/
structure FilterContext (m : Type → Type) where
  key : String
  raw : String → m (Option PropertyValue)
  resolved : Option (KeyMap PropertyValue)

/-- A function that changes a value or hides it. -/
structure Filter (m : Type → Type) where
  name : String
  apply : FilterContext m → PropertyValue → m (Option PropertyValue)

/-- Applies filters from left to right; the first one that hides the value ends the chain. -/
def Filter.chain {m : Type → Type} [Monad m] (ctx : FilterContext m) :
    List (Filter m) → PropertyValue → m (Option PropertyValue)
  | [], v => pure (some v)
  | f :: fs, v => do
    match ← f.apply ctx v with
    | some v => chain ctx fs v
    | none => pure none

theorem Filter.chain_eq_foldlM {m : Type → Type} [Monad m] (ctx : FilterContext m)
    (filters : List (Filter m)) (v : PropertyValue) :
    chain ctx filters v = (filters.foldlM (fun v f => OptionT.mk (f.apply ctx v)) v).run := by
  induction filters generalizing v with
  | nil => rfl
  | cons f fs ih =>
      rw [chain, List.foldlM_cons]
      change _ = f.apply ctx v >>= _
      congr
      funext r
      cases r with
      | none => rfl
      | some v => exact ih v

end LayeredConfig
