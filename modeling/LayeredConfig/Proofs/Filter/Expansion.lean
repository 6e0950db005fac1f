import Mathlib.Data.List.TakeWhile
import LayeredConfig.Filter.Placeholder
import LayeredConfig.Proofs.Lookup.Gives
import LayeredConfig.Proofs.Lookup.Ranking

/-!
What the expansion of placeholders amounts to. A text is read from left to right, and each
placeholder in it gives way to the substitution of the text that it stands for. This is a relation,
for with texts that refer to one another in a circle it has no end. The filter computes it up to
depth eight: all of it, when no chain of references from the text is longer than that.
-/

namespace LayeredConfig.Placeholder

/-- What the placeholder around an expression stands for, if for anything: the payload under the
key before the first colon, else the text after that colon. -/
def resolve (view : String → Option String) (expression : List Char) : Option (List Char) :=
  let key := Text.trim (expression.takeWhile (· ≠ ':'))
  ((view (String.ofList key)).map (·.toList)).or (expression.dropWhile (· ≠ ':')).tail?

def enclosed (expression : List Char) : List Char := opening ++ expression ++ closing

/-- A text and what is written in its place, when it is read from left to right at some level of
nesting. A placeholder runs up to the next closing brace. The texts at the level of the limit, if
there is one, are copied as they are. -/
inductive Substitutes (view : String → Option String) (limit : Option Nat) :
    Nat → List Char → List Char → Prop
  | verbatim {level s} : limit = some level → Substitutes view limit level s s
  | nil {level} : limit ≠ some level → Substitutes view limit level [] []
  | literal {level c s u} : limit ≠ some level → ¬ opening <+: c :: s →
      Substitutes view limit level s u → Substitutes view limit level (c :: s) (c :: u)
  | unclosed {level s} : limit ≠ some level → '\x7d' ∉ s →
      Substitutes view limit level (opening ++ s) (opening ++ s)
  | resolved {level expression text t s u} : limit ≠ some level → '\x7d' ∉ expression →
      resolve view expression = some text → Substitutes view limit (level + 1) text t →
      Substitutes view limit level s u →
      Substitutes view limit level (enclosed expression ++ s) (t ++ u)
  | unresolved {level expression s u} : limit ≠ some level → '\x7d' ∉ expression →
      resolve view expression = none → Substitutes view limit level s u →
      Substitutes view limit level (enclosed expression ++ s)
        (enclosed expression ++ u)

/-- A text that is read from left to right has a placeholder which stands for another text. -/
inductive Refers (view : String → Option String) : List Char → List Char → Prop
  | here {expression s text} : '\x7d' ∉ expression → resolve view expression = some text →
      Refers view (enclosed expression ++ s) text
  | after {expression s text} : '\x7d' ∉ expression → Refers view s text →
      Refers view (enclosed expression ++ s) text
  | literal {c s text} : ¬ opening <+: c :: s → Refers view s text → Refers view (c :: s) text

/-- Each chain of references from a text has at most so many of them. -/
def Shallow (view : String → Option String) (room : Nat) (s : List Char) : Prop :=
  ∀ texts, List.IsChain (Refers view) (s :: texts) → texts.length ≤ room

/-- Every text is read to its end by letters, by placeholders, and by an opening that is not
closed. -/
@[elab_as_elim]
theorem reading_induction {P : List Char → Prop} (nil : P [])
    (literal : ∀ c s, ¬ opening <+: c :: s → P s → P (c :: s))
    (unclosed : ∀ s, '\x7d' ∉ s → P (opening ++ s))
    (placeholder : ∀ expression s, '\x7d' ∉ expression → P s →
      P (enclosed expression ++ s)) (s : List Char) : P s := by
  induction hlength : s.length using Nat.strong_induction_on generalizing s with
  | _ n ih =>
      subst hlength
      by_cases hopen : opening <+: s
      · obtain ⟨after, rfl⟩ := hopen
        by_cases hclose : '\x7d' ∈ after
        · obtain ⟨expression, rest, rfl, hexpression⟩ := List.eq_append_cons_of_mem hclose
          have hrest : P rest := ih rest.length (by simp; omega) rest rfl
          simpa [enclosed, closing] using placeholder expression rest hexpression hrest
        · exact unclosed after hclose
      · cases s with
        | nil => exact nil
        | cons c s => exact literal c s hopen (ih s.length (by simp) s rfl)

theorem segments_plain {s : List Char} (h : Text.splitFirst? opening s = none) :
    segments s = [.plain s] := by
  grind [segments]

theorem segments_open {s before after : List Char}
    (hopen : Text.splitFirst? opening s = some (before, after))
    (hclose : Text.splitFirst? closing after = none) : segments s = [.plain s] := by
  grind [segments]

theorem segments_closed {s before after expression rest : List Char}
    (hopen : Text.splitFirst? opening s = some (before, after))
    (hclose : Text.splitFirst? closing after = some (expression, rest)) :
    segments s = .plain before :: reference expression :: segments rest := by
  grind [segments]

theorem segments_nil : segments [] = [.plain []] := segments_plain rfl

theorem segments_literal {c : Char} {s : List Char} (h : ¬ opening <+: c :: s) :
    ∃ before rest, segments s = .plain before :: rest ∧
      segments (c :: s) = .plain (c :: before) :: rest := by
  have hdrop : Text.dropPrefix? opening (c :: s) = none := Text.dropPrefix?_eq_none_iff.2 h
  have hsplit := Text.splitFirst?_cons hdrop
  cases hopen : Text.splitFirst? opening s with
  | none =>
      rw [hopen, Option.map_none] at hsplit
      exact ⟨s, [], segments_plain hopen, segments_plain hsplit⟩
  | some cut =>
      obtain ⟨before, after⟩ := cut
      rw [hopen, Option.map_some] at hsplit
      cases hclose : Text.splitFirst? closing after with
      | none => exact ⟨s, [], segments_open hopen hclose, segments_open hsplit hclose⟩
      | some cut => exact ⟨before, _, segments_closed hopen hclose, segments_closed hsplit hclose⟩

theorem segments_unclosed {s : List Char} (h : '\x7d' ∉ s) :
    segments (opening ++ s) = [.plain (opening ++ s)] :=
  segments_open (Text.splitFirst?_self s (List.cons_ne_nil _ _)) (Text.splitFirst?_of_not_mem h [])

theorem segments_placeholder {expression : List Char} (h : '\x7d' ∉ expression) (s : List Char) :
    segments (enclosed expression ++ s) =
      .plain [] :: reference expression :: segments s := by
  rw [enclosed, List.append_assoc, List.append_assoc]
  exact segments_closed (Text.splitFirst?_self _ (List.cons_ne_nil _ _))
    (Text.splitFirst?_append h [] s)

namespace Segment

def written : Segment → List Char
  | .plain s => s
  | .reference written _ _ => written

def target? (view : String → Option String) : Segment → Option (List Char)
  | .plain _ => none
  | .reference _ key fallback => ((view (String.ofList key)).map (·.toList)).or fallback

end Segment

theorem written_reference (expression : List Char) :
    (reference expression).written = enclosed expression := by
  rw [reference]
  split <;> rfl

theorem target?_reference (view : String → Option String) (expression : List Char) :
    (reference expression).target? view = resolve view expression := by
  by_cases hcolon : ':' ∈ expression
  · obtain ⟨key, fallback, rfl, hkey⟩ := List.eq_append_cons_of_mem hcolon
    have hplain : ∀ c ∈ key, decide (c ≠ ':') = true := fun c hc =>
      decide_eq_true fun h => hkey (h ▸ hc)
    have hsplit : Text.splitFirst? [':'] (key ++ ':' :: fallback) = some (key, fallback) :=
      Text.splitFirst?_append hkey [] fallback
    rw [reference, hsplit, resolve, List.takeWhile_append_of_pos hplain,
      List.dropWhile_append_of_pos hplain, List.takeWhile_cons_of_neg (by simp),
      List.dropWhile_cons_of_neg (by simp), List.append_nil]
    rfl
  · have hplain : ∀ c ∈ expression, decide (c ≠ ':') = true := fun c hc =>
      decide_eq_true fun h => hcolon (h ▸ hc)
    rw [reference, Text.splitFirst?_of_not_mem hcolon, resolve, List.takeWhile_eq_self_iff.2 hplain,
      List.dropWhile_eq_nil_iff.2 hplain]
    rfl

def references (view : String → Option String) (s : List Char) : List (List Char) :=
  (segments s).filterMap (·.target? view)

section

variable {view : String → Option String}

theorem references_nil : references view [] = [] := by
  simp [references, segments_nil, Segment.target?]

theorem references_literal {c : Char} {s : List Char} (h : ¬ opening <+: c :: s) :
    references view (c :: s) = references view s := by
  obtain ⟨before, rest, hs, hcs⟩ := segments_literal h
  simp [references, hs, hcs, Segment.target?]

theorem references_unclosed {s : List Char} (h : '\x7d' ∉ s) :
    references view (opening ++ s) = [] := by
  simp [references, segments_unclosed h, Segment.target?]

theorem references_placeholder {expression : List Char} (h : '\x7d' ∉ expression)
    (s : List Char) : references view (enclosed expression ++ s) =
      (resolve view expression).toList ++ references view s := by
  rw [references, segments_placeholder h, List.filterMap_cons_none rfl, List.filterMap_cons,
    target?_reference]
  cases resolve view expression with
  | none => rfl
  | some text => rfl

theorem refers_iff_mem {s text : List Char} : Refers view s text ↔ text ∈ references view s := by
  constructor
  · intro h
    induction h with
    | here hexpression htext => simp [references_placeholder hexpression, htext]
    | after hexpression _ ih => simp [references_placeholder hexpression, ih]
    | literal hopen _ ih => simpa [references_literal hopen] using ih
  · intro h
    induction s using reading_induction with
    | nil => simp [references_nil] at h
    | literal c s hopen ih =>
        rw [references_literal hopen] at h
        exact .literal hopen (ih h)
    | unclosed s hclose => simp [references_unclosed hclose] at h
    | placeholder expression s hexpression ih =>
        simp only [references_placeholder hexpression, List.mem_append, Option.mem_toList] at h
        rcases h with htext | hrest
        · exact .here hexpression htext
        · exact .after hexpression (ih hrest)

theorem shallow_zero_iff {s : List Char} : Shallow view 0 s ↔ references view s = [] := by
  rw [List.eq_nil_iff_forall_not_mem]
  constructor
  · intro h text htext
    have hlength := h [text] (.cons_cons (refers_iff_mem.2 htext) (.singleton text))
    simp at hlength
  · intro h texts hchain
    cases texts with
    | nil => exact Nat.le_refl 0
    | cons text texts =>
        exact absurd (refers_iff_mem.1 (List.isChain_cons_cons.1 hchain).1) (h text)

theorem shallow_succ_iff {room : Nat} {s : List Char} :
    Shallow view (room + 1) s ↔ ∀ text ∈ references view s, Shallow view room text := by
  constructor
  · intro h text htext texts hchain
    have hlength := h (text :: texts) (hchain.cons_cons (refers_iff_mem.2 htext))
    simpa using hlength
  · intro h texts hchain
    cases texts with
    | nil => exact Nat.zero_le _
    | cons text texts =>
        obtain ⟨hrefers, hrest⟩ := List.isChain_cons_cons.1 hchain
        have hlength := h text (refers_iff_mem.1 hrefers) texts hrest
        simpa using hlength

theorem Shallow.of_subset {room : Nat} {s t : List Char} (h : Shallow view room t)
    (hsubset : references view s ⊆ references view t) : Shallow view room s := by
  cases room with
  | zero =>
      rw [shallow_zero_iff] at *
      exact List.subset_nil.1 (h ▸ hsubset)
  | succ room =>
      rw [shallow_succ_iff] at *
      exact fun text htext => h text (hsubset htext)

/-- How deep the references of a text go is found by following them. -/
def decideShallow (view : String → Option String) :
    (room : Nat) → (s : List Char) → Decidable (Shallow view room s)
  | 0, _ => decidable_of_iff _ shallow_zero_iff.symm
  | room + 1, s =>
    have := decideShallow view room
    decidable_of_iff (∀ text ∈ references view s, Shallow view room text) shallow_succ_iff.symm

instance (room : Nat) (s : List Char) : Decidable (Shallow view room s) :=
  decideShallow view room s

end

def expanded (view : String → Option String) : Nat → List Char → List Char
  | 0, s => s
  | room + 1, s => (segments s).flatMap fun piece =>
    (piece.target? view).elim piece.written (expanded view room)

theorem gives_expand {σ : Type} [Setoid σ] {raw : String → StateM σ (Option PropertyValue)}
    {found : String → Option PropertyValue} {s : σ} (hraw : ∀ key, Gives (raw key) s (found key))
    (room : Nat) (text : List Char) :
    Gives (expand raw room text) s
      (expanded (fun key => (found key).bind (·.value)) room text) := by
  induction room generalizing text with
  | zero => exact .pure text s
  | succ room ih =>
      rw [expanded, List.flatMap_def]
      refine Gives.bind (Gives.mapM fun piece _ => ?_) (.pure _ s)
      cases piece with
      | plain s => exact .pure _ _
      | reference written key fallback =>
          refine (hraw (String.ofList key)).bind ?_
          rw [Segment.target?]
          dsimp only
          cases (((found (String.ofList key)).bind (·.value)).map (·.toList)).or fallback with
          | none => exact .pure written s
          | some text => exact ih text

section

variable {view : String → Option String} {limit : Option Nat}

theorem expanded_nil (room : Nat) : expanded view room [] = [] := by
  cases room with
  | zero => rfl
  | succ room => simp [expanded, segments_nil, Segment.target?, Segment.written]

theorem expanded_literal {c : Char} {s : List Char} (h : ¬ opening <+: c :: s) (room : Nat) :
    expanded view room (c :: s) = c :: expanded view room s := by
  cases room with
  | zero => rfl
  | succ room =>
      obtain ⟨before, rest, hs, hcs⟩ := segments_literal h
      simp [expanded, hs, hcs, Segment.target?, Segment.written]

theorem expanded_unclosed {s : List Char} (h : '\x7d' ∉ s) (room : Nat) :
    expanded view room (opening ++ s) = opening ++ s := by
  cases room with
  | zero => rfl
  | succ room => simp [expanded, segments_unclosed h, Segment.target?, Segment.written]

theorem expanded_succ_placeholder {expression : List Char} (h : '\x7d' ∉ expression)
    (room : Nat) (s : List Char) :
    expanded view (room + 1) (enclosed expression ++ s) =
      (resolve view expression).elim (enclosed expression) (expanded view room) ++
        expanded view (room + 1) s := by
  rw [expanded, segments_placeholder h, List.flatMap_cons, List.flatMap_cons, target?_reference,
    written_reference]
  rfl

theorem expanded_resolved {expression text : List Char} (h : '\x7d' ∉ expression)
    (htext : resolve view expression = some text) (room : Nat) (s : List Char) :
    expanded view (room + 1) (enclosed expression ++ s) =
      expanded view room text ++ expanded view (room + 1) s := by
  rw [expanded_succ_placeholder h, htext, Option.elim_some]

theorem expanded_unresolved {expression : List Char} (h : '\x7d' ∉ expression)
    (hnone : resolve view expression = none) (room : Nat) (s : List Char) :
    expanded view room (enclosed expression ++ s) =
      enclosed expression ++ expanded view room s := by
  cases room with
  | zero => rfl
  | succ room => rw [expanded_succ_placeholder h, hnone, Option.elim_none]

theorem substitutes_expanded_of_references {level room : Nat} {s : List Char}
    (hlevel : limit ≠ some level)
    (htexts : ∀ text ∈ references view s, ∃ less, room = less + 1 ∧
      Substitutes view limit (level + 1) text (expanded view less text)) :
    Substitutes view limit level s (expanded view room s) := by
  induction s using reading_induction with
  | nil =>
      rw [expanded_nil]
      exact .nil hlevel
  | literal c s hopen ih =>
      rw [references_literal hopen] at htexts
      rw [expanded_literal hopen]
      exact .literal hlevel hopen (ih htexts)
  | unclosed s hclose =>
      rw [expanded_unclosed hclose]
      exact .unclosed hlevel hclose
  | placeholder expression s hexpression ih =>
      simp only [references_placeholder hexpression, List.mem_append, Option.mem_toList] at htexts
      have hrest := ih fun text htext => htexts text (.inr htext)
      cases hresolve : resolve view expression with
      | none =>
          rw [expanded_unresolved hexpression hresolve]
          exact .unresolved hlevel hexpression hresolve hrest
      | some text =>
          obtain ⟨less, rfl, htext⟩ := htexts text (.inl hresolve)
          rw [expanded_resolved hexpression hresolve]
          exact .resolved hlevel hexpression hresolve htext hrest

/-- Each level down to the last one is read; that one is copied, or has nothing to put in. -/
structure Sufficient (view : String → Option String) (limit : Option Nat) (level room : Nat)
    (s : List Char) : Prop where
  live : ∀ k < room, limit ≠ some (level + k)
  last : limit = some (level + room) ∨ Shallow view room s

namespace Sufficient

variable {level room : Nat} {s t : List Char}

theorem of_subset (h : Sufficient view limit level room t)
    (hsubset : references view s ⊆ references view t) : Sufficient view limit level room s :=
  ⟨h.live, h.last.imp id fun hshallow => hshallow.of_subset hsubset⟩

theorem eq_zero (h : Sufficient view limit level room s) (hlimit : limit = some level) :
    room = 0 := by
  by_contra hroom
  exact h.live 0 (Nat.pos_of_ne_zero hroom) hlimit

theorem of_mem {text : List Char} (h : Sufficient view limit level room s)
    (hlevel : limit ≠ some level) (htext : text ∈ references view s) :
    ∃ less, room = less + 1 ∧ Sufficient view limit (level + 1) less text := by
  cases room with
  | zero =>
      have hnone := shallow_zero_iff.1 (h.last.resolve_left hlevel)
      rw [hnone] at htext
      cases htext
  | succ less =>
      refine ⟨less, rfl, ⟨fun k hk => ?_, ?_⟩⟩
      · rw [Nat.add_assoc, Nat.add_comm 1 k]
        exact h.live (k + 1) (Nat.succ_lt_succ hk)
      · rw [Nat.add_assoc, Nat.add_comm 1 less]
        exact h.last.imp id fun hshallow => shallow_succ_iff.1 hshallow text htext

end Sufficient

theorem substitutes_expanded {level room : Nat} {s : List Char}
    (h : Sufficient view limit level room s) :
    Substitutes view limit level s (expanded view room s) := by
  induction room generalizing level s with
  | zero =>
      by_cases hlevel : limit = some level
      · exact .verbatim hlevel
      · refine substitutes_expanded_of_references hlevel fun text htext => ?_
        obtain ⟨less, hless, -⟩ := h.of_mem hlevel htext
        cases hless
  | succ room ih =>
      have hlevel : limit ≠ some level := h.live 0 (Nat.zero_lt_succ room)
      refine substitutes_expanded_of_references hlevel fun text htext => ?_
      obtain ⟨less, hless, hsufficient⟩ := h.of_mem hlevel htext
      cases hless
      exact ⟨room, rfl, ih hsufficient⟩

/-- The expansion is the only substitution. -/
theorem Substitutes.eq_expanded {level room : Nat} {s u : List Char}
    (hs : Substitutes view limit level s u) (h : Sufficient view limit level room s) :
    u = expanded view room s := by
  induction hs generalizing room with
  | verbatim hlimit =>
      cases h.eq_zero hlimit
      rfl
  | nil => rw [expanded_nil]
  | literal _ hopen _ ih =>
      rw [expanded_literal hopen]
      exact congrArg _ (ih (h.of_subset (references_literal hopen ▸ List.Subset.refl _)))
  | unclosed _ hclose => rw [expanded_unclosed hclose]
  | @resolved level expression text t s u hlevel hexpression htext _ _ iht ihs =>
      have hreferences : references view (enclosed expression ++ s) =
          (resolve view expression).toList ++ references view s :=
        references_placeholder hexpression s
      have hmem : text ∈ references view (enclosed expression ++ s) := by
        simp [hreferences, htext]
      obtain ⟨less, rfl, htext'⟩ := h.of_mem hlevel hmem
      rw [expanded_resolved hexpression htext, iht htext', ihs (h.of_subset ?_)]
      rw [hreferences]
      exact List.subset_append_right _ _
  | unresolved _ hexpression hresolve _ ih =>
      rw [expanded_unresolved hexpression hresolve]
      refine congrArg _ (ih (h.of_subset ?_))
      rw [references_placeholder hexpression]
      exact List.subset_append_right _ _

theorem substitutes_iff {level room : Nat} {s u : List Char}
    (h : Sufficient view limit level room s) :
    Substitutes view limit level s u ↔ u = expanded view room s := by
  constructor
  · intro hs
    exact hs.eq_expanded h
  · rintro rfl
    exact substitutes_expanded h

end

end LayeredConfig.Placeholder

namespace LayeredConfig

open Placeholder

variable {σ : Type} [Setoid σ]

/-- The payload of the first provider with a value for a key; a failing one is passed over. -/
def Context.payload? (c : Context (StateM σ)) (s : σ) (key : String) : Option String :=
  (c.providers.findSome? (·.answer? key s)).bind (·.value)

theorem Context.gives_getRaw {c : Context (StateM σ)} (h : ∀ p ∈ c.providers, p.Steady) (s : σ)
    (key : String) : Gives (c.getRaw key) s (c.providers.findSome? (·.answer? key s)) := by
  rw [← outcome_firstAnswer key h s]
  exact .of_steady (steady_firstAnswer key h) s

/-- The filter puts one text in the place of a payload: the one that the substitution with a limit
of eight levels writes. Without a limit the substitution writes this text too, if no chain of
references from the payload is longer than eight. -/
theorem Filter.placeholder_substitutes {c : Context (StateM σ)} (h : ∀ p ∈ c.providers, p.Steady)
    (s : σ) (key : String) (resolved : Option (KeyMap PropertyValue)) {v : PropertyValue}
    {payload : String} (hpayload : v.value = some payload) :
    ∃ text, outcome (Filter.placeholder.apply ⟨key, c.getRaw, resolved⟩ v) s =
        some (v.withValue (String.ofList text)) ∧
      (∀ u, Substitutes (c.payload? s) (some 8) 0 payload.toList u ↔ u = text) ∧
      (Shallow (c.payload? s) 8 payload.toList →
        ∀ u, Substitutes (c.payload? s) none 0 payload.toList u ↔ u = text) := by
  refine ⟨expanded (c.payload? s) maxDepth payload.toList, ?_, fun u => ?_, fun hshallow u => ?_⟩
  · have hexpand := gives_expand (c.gives_getRaw h s) maxDepth payload.toList
    simp only [Filter.placeholder, hpayload]
    refine (Gives.bind hexpand ?_).outcome_eq
    exact .pure _ s
  · refine substitutes_iff ⟨fun k hk => ?_, .inl rfl⟩
    simp only [maxDepth] at hk
    simp only [ne_eq, Option.some.injEq]
    omega
  · exact substitutes_iff ⟨fun _ _ => nofun, .inr hshallow⟩

namespace Sample

/-- Providers of which the first fails, and a filter for placeholders. -/
def linked : Context Act := ⟨9, layered.providers, [Filter.placeholder], []⟩

/-- Eight values, each of which but the last refers to the next one. -/
def links : World :=
  ((World.initial "/").setMemory 0 (.ofList [("d", some "$\x7be\x7d"), ("e", some "$\x7bf\x7d"),
    ("f", some "$\x7bg\x7d"), ("g", some "$\x7bh\x7d"), ("h", some "end"),
    ("none", some "shadowed")])).setMemory 1 (.ofList [("a", some "$\x7bb\x7d"),
    ("b", some "<$\x7bc\x7d>"), ("c", some "$\x7bd\x7d"), ("none", none)])

/-- A payload with a chain of references, fallbacks, a reference to nothing, and one left open. -/
def linkedPayload : String :=
  "$$\x7ba\x7d $\x7b port :80\x7d$\x7bnone:?\x7d $\x7bnone\x7d $\x7ba"

def linkedValue : PropertyValue := ⟨"key", some linkedPayload, "test", .empty⟩

def linkedText : String := "$<end> 80? $\x7bnone\x7d $\x7ba"

/-- The chain from the payload has just eight references, and all of it is substituted. -/
theorem links_substituted :
    Shallow (linked.payload? links) 8 linkedPayload.toList ∧
      outcome (Filter.placeholder.apply ⟨"key", linked.getRaw, none⟩ linkedValue) links =
        some (linkedValue.withValue linkedText) ∧
      Substitutes (linked.payload? links) none 0 linkedPayload.toList linkedText.toList := by
  let := World.alike fun _ files _ => settings.read files
  have hshallow : Shallow (linked.payload? links) 8 linkedPayload.toList := by decide +kernel
  have happly : outcome (Filter.placeholder.apply ⟨"key", linked.getRaw, none⟩ linkedValue) links =
      some (linkedValue.withValue linkedText) := by decide +kernel
  have hvalue : linkedValue.value = some linkedPayload := rfl
  obtain ⟨text, htext, -, hall⟩ :=
    Filter.placeholder_substitutes (c := linked) steady_layered links "key" none hvalue
  rw [happly] at htext
  simp only [PropertyValue.withValue, Option.some.injEq, PropertyValue.mk.injEq] at htext
  refine ⟨hshallow, happly, (hall hshallow _).2 ?_⟩
  rw [htext.2.1, String.toList_ofList]

end Sample

end LayeredConfig
