/-!
Sets and mappings of code points, described by ranges.
-/

namespace LayeredConfig.Text

def inRanges (ranges : List (Nat × Nat)) (n : Nat) : Bool :=
  ranges.any fun r => r.1 ≤ n && n ≤ r.2

/-- A run `(first, last, stride, target)` maps `first`, `first + stride`, and so on up to `last` to
the code points at the same distance from `target`. -/
abbrev MappingRun := Nat × Nat × Nat × Nat

/-- The image of a code point under the first run that holds it. -/
def applyRuns (runs : List MappingRun) (n : Nat) : Nat :=
  match runs.find? (fun (first, last, stride, _) =>
      first ≤ n && n ≤ last && (n - first) % stride == 0) with
  | some (first, _, _, target) => target + (n - first)
  | none => n

end LayeredConfig.Text
