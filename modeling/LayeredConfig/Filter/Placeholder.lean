import LayeredConfig.Filter
import LayeredConfig.Text.Blank
import LayeredConfig.Text.Search

/-!
The filter that expands placeholders. A placeholder `${key}` or `${key:fallback}` stands for the
unfiltered payload of its key, else for its fallback; one with neither stays as it is written. What
is put in is expanded too, up to a depth.
-/

namespace LayeredConfig.Placeholder

/-- A piece of a text: characters that stand for themselves, or a placeholder with its written form,
its key and its fallback. -/
inductive Segment
  | plain (s : List Char)
  | reference (written key : List Char) (fallback : Option (List Char))

def opening : List Char := ['$', '\x7b']

def closing : List Char := ['\x7d']

/-- The placeholder around an expression: what stands before the first colon is the key. -/
def reference (expression : List Char) : Segment :=
  let written := opening ++ expression ++ closing
  match Text.splitFirst? [':'] expression with
  | some (key, fallback) => .reference written (Text.trim key) (some fallback)
  | none => .reference written (Text.trim expression) none

/-- Splits a text at its placeholders, from left to right. One that is not closed is no
placeholder. -/
def segments (s : List Char) : List Segment :=
  match _hopen : Text.splitFirst? opening s with
  | none => [.plain s]
  | some (before, after) =>
    match _hclose : Text.splitFirst? closing after with
    | none => [.plain s]
    | some (expression, rest) => .plain before :: reference expression :: segments rest
termination_by s.length
decreasing_by
  have h1 := Text.eq_append_of_splitFirst? _hopen
  have h2 := Text.eq_append_of_splitFirst? _hclose
  subst h1 h2
  simp only [List.length_append, opening, closing, List.length_cons, List.length_nil]
  omega

def maxDepth : Nat := 8

/-- Expands the placeholders of a text, with some room for placeholders in what is put in. -/
def expand {m : Type → Type} [Monad m] (raw : String → m (Option PropertyValue)) :
    Nat → List Char → m (List Char)
  | 0, s => pure s
  | room + 1, s => do
    let pieces ← (segments s).mapM fun segment => do
      match segment with
      | .plain s => return s
      | .reference written key fallback =>
        let payload := (← raw (String.ofList key)).bind (·.value)
        match (payload.map (·.toList)).or fallback with
        | some text => expand raw room text
        | none => return written
    return pieces.flatten

end LayeredConfig.Placeholder

namespace LayeredConfig.Filter

def placeholder {m : Type → Type} [Monad m] : Filter m where
  name := "placeholder"
  apply ctx v := do
    match v.value with
    | some text =>
      let expanded ← Placeholder.expand ctx.raw Placeholder.maxDepth text.toList
      return some (v.withValue (String.ofList expanded))
    | none => return some v

end LayeredConfig.Filter
