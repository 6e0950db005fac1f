import LayeredConfig.Proofs.Xml.Attributes
import Mathlib.Data.List.Forall2
import Mathlib.Data.List.Nodup

/-!
The elements `entry` of a document as they are written, one after another, and the entries that are
read from them. A start tag ends at the first `>` and a text at the first `</entry>`, so an element
is read for itself if no value of its attributes holds a `>` and nothing stands before the `>` of
its end tag (`Element.Tight`); a text in which its end was missed is read as another one.
-/

namespace LayeredConfig.Format.Xml

open Text (splitFirst? dropPrefix? splitFirst?_cons splitFirst?_skip splitFirst?_append
  splitFirst?_clear_append not_arises_of_head not_infix_append not_infix_cons not_infix_skip)

/-- The content of an element with its end tag: an escaped text, and white space in the tag. -/
structure Content where
  raw : List Char
  text : List Char
  endSpace : List Char
  escaped : Escaped raw text
  blank : ∀ c ∈ endSpace, c ∈ spaces

def Content.written (c : Content) : List Char :=
  c.raw ++ ("</entry".toList ++ (c.endSpace ++ ['>']))

/-- What may stand between elements: white space, or any markup but comments, elements with a name
that starts with `entry` and the end of the root. -/
structure Between (s : List Char) : Prop where
  uncommented : ¬ "<!--".toList <:+: s
  noEntry : ¬ "<entry".toList <:+: s
  noEnd : ¬ "</properties>".toList <:+: s

/-- An element `entry` after what stands before it; without content it is closed by its start
tag. -/
structure Element where
  gap : List Char
  tag : StartTag
  content : Option Content
  between : Between gap

namespace Element

variable (e : Element)

def ending : List Char :=
  match e.content with
  | none => "/>".toList
  | some c => '>' :: c.written

def written : List Char := e.gap ++ ("<entry".toList ++ (e.tag.written ++ e.ending))

def text : List Char := e.content.elim [] Content.text

/-- The entry of an element whose key one of its attributes supplies. -/
def entry (supplier : StartTag → Option Attribute) : Except MarkupFault (String × String) :=
  match supplier e.tag with
  | none => .error .noKey
  | some a => .ok (String.ofList a.text, String.ofList e.text)

/-- The first `>` of a start tag ends it, and the end tag is written without white space. -/
structure Tight : Prop where
  attributes : ∀ a ∈ e.tag.attributes, '>' ∉ a.raw
  content : ∀ c ∈ e.content, c.endSpace = []

end Element

theorem exists_of_bind_ok {ε α β : Type} {x : Except ε α} {f : α → Except ε β} {b : β}
    (h : x >>= f = .ok b) : ∃ a, x = .ok a ∧ f a = .ok b := by
  cases x with
  | error fault => cases h
  | ok a => exact ⟨a, rfl, h⟩

theorem exists_of_map_ok {ε α β : Type} {x : Except ε α} {f : α → β} {b : β}
    (h : f <$> x = .ok b) : ∃ a, x = .ok a ∧ f a = b := by
  cases x with
  | error fault => cases h
  | ok a => exact ⟨a, rfl, Except.ok.inj h⟩

theorem mapM_eq_ok_iff {ε α β : Type} {f : α → Except ε β} {l : List α} {values : List β} :
    l.mapM f = .ok values ↔ List.Forall₂ (fun a b => f a = .ok b) l values := by
  constructor
  · intro h
    induction l generalizing values with
    | nil =>
        cases h
        exact .nil
    | cons a l ih =>
        rw [List.mapM_cons] at h
        obtain ⟨b, hb, hrest⟩ := exists_of_bind_ok h
        obtain ⟨values', hvalues, hcons⟩ := exists_of_bind_ok hrest
        cases hcons
        exact .cons hb (ih hvalues)
  · intro h
    induction h with
    | nil => rfl
    | cons hb _ ih =>
        rw [List.mapM_cons, hb, ih]
        rfl

theorem exists_of_mapM_fails {ε α β : Type} {f : α → Except ε β} {l : List α}
    (h : ∃ a ∈ l, ∀ b, f a ≠ .ok b) : ∃ a ∈ l, ∃ cause, f a = .error cause ∧
      l.mapM f = .error cause := by
  induction l with
  | nil =>
      obtain ⟨a, ha, -⟩ := h
      exact absurd ha List.not_mem_nil
  | cons a l ih =>
      rw [List.mapM_cons]
      cases ha : f a with
      | error cause => exact ⟨a, List.mem_cons_self, cause, ha, rfl⟩
      | ok b =>
          have hlater : ∃ a ∈ l, ∀ b, f a ≠ .ok b := by
            obtain ⟨a', ha', hfails⟩ := h
            refine ⟨a', (List.mem_cons.1 ha').resolve_left ?_, hfails⟩
            rintro rfl
            exact hfails b ha
          obtain ⟨a', ha', cause, hcause, hmapM⟩ := ih hlater
          rw [hmapM]
          exact ⟨a', List.mem_cons_of_mem _ ha', cause, hcause, rfl⟩

theorem bodyEntries_of_between {s : List Char} (h : Between s) : bodyEntries s = .ok [] := by
  rw [bodyEntries_eq, Text.splitFirst?_eq_none_iff.2 h.noEntry]

namespace Element

variable {e : Element}

/-- An element is read by its start tag, and by the text up to its end tag if it is not closed
before. -/
theorem bodyEntries_written {rest tag afterTag : List Char}
    (htag : splitFirst? ['>'] (e.tag.written ++ (e.ending ++ rest)) = some (tag, afterTag)) :
    bodyEntries (e.written ++ rest) =
      match keyAttribute? (Text.dropEndWhile (· = '/') tag) with
      | none => .error .noKey
      | some rawKey =>
        unescape rawKey >>= fun key =>
          if tag.getLast? = some '/' then
            ((String.ofList key, "") :: ·) <$> bodyEntries afterTag
          else
            match splitFirst? "</entry>".toList afterTag with
            | none => .error (.openEntry key)
            | some (content, rest) =>
              unescape content >>= fun value =>
                ((String.ofList key, String.ofList value) :: ·) <$> bodyEntries rest := by
  have hending : endsName (e.ending ++ rest).head? = true := by
    rw [ending]
    cases e.content <;> rfl
  have hends := e.tag.endsName_written hending
  have hname : splitFirst? "<entry".toList (e.written ++ rest) =
      some (e.gap, e.tag.written ++ (e.ending ++ rest)) := by
    rw [written, List.append_assoc, List.append_assoc, List.append_assoc]
    refine splitFirst?_clear_append e.between.noEntry (not_arises_of_head ?_ e.gap)
    rintro c ⟨⟩
    decide
  have hread := bodyEntries_eq (e.written ++ rest)
  rw [hname] at hread
  simp only [hends, htag, if_true] at hread
  exact hread

theorem bodyEntries_opened {c : Content} (hquiet : e.tag.Quiet)
    (hattributes : ∀ a ∈ e.tag.attributes, '>' ∉ a.raw) (hcontent : e.content = some c)
    (rest : List Char) :
    bodyEntries (e.written ++ rest) =
      match e.tag.supplier? with
      | none => .error .noKey
      | some a =>
        match splitFirst? "</entry>".toList (c.written ++ rest) with
        | none => .error (.openEntry a.text)
        | some (content, rest) =>
          unescape content >>= fun value =>
            ((String.ofList a.text, String.ofList value) :: ·) <$> bodyEntries rest := by
  have htag : splitFirst? ['>'] (e.tag.written ++ (e.ending ++ rest)) =
      some (e.tag.written, c.written ++ rest) := by
    rw [ending, hcontent]
    exact splitFirst?_append (e.tag.not_mem_written (by decide) hattributes) [] _
  rw [bodyEntries_written htag, e.tag.dropEndWhile_written, hquiet.keyAttribute?_written]
  cases e.tag.supplier? with
  | none => rfl
  | some a =>
      simp only [Option.map_some, a.escaped.unescape_raw, e.tag.getLast?_written, if_false]
      rfl

theorem Tight.bodyEntries_append (htight : e.Tight) (hquiet : e.tag.Quiet) (rest : List Char) :
    bodyEntries (e.written ++ rest) =
      e.entry StartTag.supplier? >>= fun entry => (entry :: ·) <$> bodyEntries rest := by
  cases hcontent : e.content with
  | none =>
      have hgt : '>' ∉ e.tag.written ++ ['/'] :=
        List.not_mem_append (e.tag.not_mem_written (by decide) htight.attributes) (by decide)
      have htag : splitFirst? ['>'] (e.tag.written ++ (e.ending ++ rest)) =
          some (e.tag.written ++ ['/'], rest) := by
        rw [← splitFirst?_append hgt [] rest, ending, hcontent, List.append_assoc]
        rfl
      -- The slash that closes the tag is dropped before the attributes are searched.
      rw [bodyEntries_written htag, Text.dropEndWhile_concat_of_pos (by decide),
        e.tag.dropEndWhile_written, hquiet.keyAttribute?_written, entry, text, hcontent]
      cases e.tag.supplier? with
      | none => rfl
      | some a =>
          simp only [Option.map_some, a.escaped.unescape_raw, List.getLast?_concat, if_true]
          rfl
  | some c =>
      have hclose : splitFirst? "</entry>".toList (c.written ++ rest) = some (c.raw, rest) := by
        rw [← splitFirst?_append c.escaped.not_mem "/entry>".toList rest, Content.written,
          htight.content c hcontent]
        simp
      rw [bodyEntries_opened hquiet htight.attributes hcontent, hclose, entry, text, hcontent]
      cases e.tag.supplier? with
      | none => rfl
      | some a =>
          simp only [c.escaped.unescape_raw]
          rfl

theorem splitFirst?_spaced {c : Content} (hspace : c.endSpace ≠ []) (rest : List Char) :
    ∃ passed, splitFirst? "</entry>".toList (c.written ++ rest) =
      (splitFirst? "</entry>".toList passed).map fun r => (c.raw ++ '<' :: r.1, r.2) := by
  obtain ⟨d, space, hd⟩ := List.exists_cons_of_ne_nil hspace
  have hne : d ≠ '>' := by
    rintro rfl
    exact absurd (c.blank '>' (hd ▸ List.mem_cons_self)) (by decide)
  let passed := "/entry".toList ++ (d :: (space ++ '>' :: rest))
  have hwritten : c.written ++ rest = c.raw ++ ('<' :: passed) := by
    simp [Content.written, hd, passed]
  have hdrop : dropPrefix? "</entry>".toList ('<' :: passed) = none := by
    simp [passed, dropPrefix?, hne.symm]
  have hskip : splitFirst? "</entry>".toList (c.raw ++ ('<' :: passed)) =
      (splitFirst? "</entry>".toList ('<' :: passed)).map fun r => (c.raw ++ r.1, r.2) :=
    splitFirst?_skip c.escaped.not_mem _ _
  refine ⟨passed, ?_⟩
  rw [hwritten, hskip, splitFirst?_cons hdrop, Option.map_map]
  rfl

theorem ne_text_of_spaced {c : Content} {entry : String × String} {entries : List (String × String)}
    {rest : List Char} (hquiet : e.tag.Quiet)
    (hattributes : ∀ a ∈ e.tag.attributes, '>' ∉ a.raw) (hcontent : e.content = some c)
    (hspace : c.endSpace ≠ []) (h : bodyEntries (e.written ++ rest) = .ok (entry :: entries)) :
    entry.2 ≠ String.ofList e.text := by
  obtain ⟨passed, hpassed⟩ := splitFirst?_spaced hspace rest
  rw [bodyEntries_opened hquiet hattributes hcontent, hpassed] at h
  rcases hsupplier : e.tag.supplier? with _ | a
  · simp only [hsupplier, reduceCtorEq] at h
  rcases hclose : splitFirst? "</entry>".toList passed with _ | ⟨content, after⟩
  · simp only [hsupplier, hclose, Option.map_none, reduceCtorEq] at h
  simp only [hsupplier, hclose, Option.map_some] at h
  obtain ⟨value, hvalue, hrest⟩ := exists_of_bind_ok h
  obtain ⟨entries', -, hentries⟩ := exists_of_map_ok hrest
  obtain ⟨rfl, -⟩ := List.cons.inj hentries
  rw [text, hcontent]
  exact fun heq => c.escaped.ne_of_unescape_markup hvalue (String.ofList_injective heq)

/-- A key that holds a `>` is cut off where it stands. -/
theorem bodyEntries_cut {before after : List Attribute} {a : Attribute}
    (hsplit : e.tag.attributes = before ++ a :: after)
    (hbefore : ∀ b ∈ before, (¬ b.Supplies ∧ b.Quiet) ∧ '>' ∉ b.raw) (ha : a.Supplies)
    (hcut : '>' ∈ a.raw) (rest : List Char) :
    bodyEntries (e.written ++ rest) = .error .noKey := by
  obtain ⟨x, y, hraw, hx⟩ := List.eq_append_cons_of_mem hcut
  have hgt : '>' ∉ before.flatMap Attribute.written ++ (a.opening ++ x) := by
    refine List.not_mem_append (fun hmem => ?_)
      (List.not_mem_append (a.not_mem_opening (by decide)) hx)
    obtain ⟨b, hb, hmem⟩ := List.mem_flatMap.1 hmem
    exact b.not_mem_written (by decide) (hbefore b hb).2 hmem
  have htag : splitFirst? ['>'] (e.tag.written ++ (e.ending ++ rest)) =
      some (before.flatMap Attribute.written ++ (a.opening ++ x),
        y ++ (a.quote :: (after.flatMap Attribute.written ++
          (e.tag.space ++ (e.ending ++ rest))))) := by
    rw [← splitFirst?_append hgt []]
    simp [StartTag.written, hsplit, Attribute.written, hraw]
  have hquote : a.quote ∉ Text.dropEndWhile (· = '/') x := by
    intro hmem
    have hmem' := List.dropWhile_subset _ (List.mem_reverse.1 hmem)
    exact a.unquoted (hraw ▸ List.mem_append_left _ (List.mem_reverse.1 hmem'))
  -- Dropping the slashes at the end does not reach the quotation mark.
  have hslash : decide (a.quote = '/') = false := decide_eq_false (a.ne_quote (by decide)).symm
  have hopening :
      Text.dropEndWhile (· = '/') (before.flatMap Attribute.written ++ (a.opening ++ x)) =
        before.flatMap Attribute.written ++ (a.opening ++ Text.dropEndWhile (· = '/') x) := by
    have hdrop := Text.dropEndWhile_append (p := (· = '/')) hslash
      (before.flatMap Attribute.written ++ (a.space ++ (a.sign ++ a.afterSign))) x
    simpa [Attribute.opening] using hdrop
  rw [bodyEntries_written htag, hopening, keyAttribute?_eq,
    StartTag.keyFrom_supplier (fun b hb => (hbefore b hb).1) ha, a.quotedValue?_open hquote]

theorem entry_eq_ok {supplier : StartTag → Option Attribute} {entry : String × String}
    (h : e.entry supplier = .ok entry) :
    ∃ a, supplier e.tag = some a ∧ entry = (String.ofList a.text, String.ofList e.text) := by
  rw [Element.entry] at h
  cases hsupplier : supplier e.tag with
  | none =>
      rw [hsupplier] at h
      cases h
  | some a =>
      rw [hsupplier] at h
      exact ⟨a, rfl, (Except.ok.inj h).symm⟩

theorem gt_not_mem_of_read {a : Attribute} {entries : List (String × String)} {rest : List Char}
    (hquiet : e.tag.Quiet) (ha : e.tag.supplier? = some a) (hname : a.name = "key".toList)
    (hothers : ∀ a ∈ e.tag.attributes, a.name ≠ "key".toList → '>' ∉ a.raw)
    (h : bodyEntries (e.written ++ rest) = .ok entries) :
    ∀ b ∈ e.tag.attributes, '>' ∉ b.raw := by
  obtain ⟨hsupplies, before, after, hsplit, hbefore⟩ := hquiet.of_supplier? ha
  intro b hb hcut
  by_cases hkey : b.name = "key".toList
  · have hmem : a ∈ e.tag.attributes := hsplit ▸ List.mem_append_right before List.mem_cons_self
    have hsame : a = b :=
      List.inj_on_of_nodup_map e.tag.distinct hmem hb (hname.trans hkey.symm)
    have hbefore' : ∀ b ∈ before, (¬ b.Supplies ∧ b.Quiet) ∧ '>' ∉ b.raw := fun b hb =>
      ⟨hbefore b hb, hothers b (hsplit ▸ List.mem_append_left _ hb) fun hkey =>
        (hbefore b hb).1 (Attribute.supplies_of_name_key hkey)⟩
    rw [bodyEntries_cut hsplit hbefore' hsupplies (hsame ▸ hcut)] at h
    cases h
  · exact hothers b hb hkey hcut

theorem tight_of_read {entry : String × String} {entries : List (String × String)}
    {rest : List Char} (hquiet : e.tag.Quiet) (hsupplier : e.tag.supplier? = e.tag.key?)
    (hothers : ∀ a ∈ e.tag.attributes, a.name ≠ "key".toList → '>' ∉ a.raw)
    (hentry : e.entry StartTag.supplier? = .ok entry)
    (h : bodyEntries (e.written ++ rest) = .ok (entry :: entries)) :
    e.Tight ∧ bodyEntries rest = .ok entries := by
  obtain ⟨a, ha, hvalue⟩ := entry_eq_ok hentry
  have hname : a.name = "key".toList := by
    simpa using List.find?_some (hsupplier ▸ ha : e.tag.key? = some a)
  have hattributes := gt_not_mem_of_read hquiet ha hname hothers h
  have htight : e.Tight := by
    refine ⟨hattributes, fun c hc => ?_⟩
    by_contra hspace
    exact ne_text_of_spaced hquiet hattributes hc hspace h (congrArg Prod.snd hvalue)
  refine ⟨htight, ?_⟩
  rw [htight.bodyEntries_append hquiet, hentry] at h
  obtain ⟨entries', hrest, hentries⟩ := exists_of_map_ok h
  rw [hrest, (List.cons.inj hentries).2]

theorem not_infix_written_append {ms s : List Char} (hms : '<' ∉ ms)
    (hbetween : ∀ t, Between t → ¬ '<' :: ms <:+: t) (hstart : ∀ t, ¬ ms <+: "entry".toList ++ t)
    (hend : ∀ t, ¬ ms <+: "/entry".toList ++ t) (hs : ¬ '<' :: ms <:+: s) (e : Element) :
    ¬ '<' :: ms <:+: e.written ++ s := by
  have hending : ¬ '<' :: ms <:+: e.ending ++ s := by
    rw [ending]
    cases e.content with
    | none => exact not_infix_skip (by decide) hs
    | some c =>
        have hclosed : ¬ '<' :: ms <:+: '<' :: ("/entry".toList ++ (c.endSpace ++ (['>'] ++ s))) :=
          not_infix_cons (hend _) (not_infix_skip (by decide)
            (not_infix_skip (bracket_not_mem_of_blank (by decide) c.blank)
              (not_infix_skip (by decide) hs)))
        have hcontent := not_infix_skip (a := '>' :: c.raw)
          (List.not_mem_cons_of_ne_of_not_mem (by decide) c.escaped.not_mem) hclosed
        simpa [Content.written] using hcontent
  have hopened : ¬ '<' :: ms <:+: '<' :: ("entry".toList ++ (e.tag.written ++ (e.ending ++ s))) :=
    not_infix_cons (hstart _) (not_infix_skip (by decide)
      (not_infix_skip e.tag.lt_not_mem_written hending))
  have hwritten := not_infix_append (hbetween e.gap e.between)
    (not_arises_of_head (by simpa using hms) e.gap) hopened
  simpa [written] using hwritten

end Element

theorem bodyEntries_elements {elements : List Element} {after : List Char}
    (htight : ∀ e ∈ elements, e.Tight) (hquiet : ∀ e ∈ elements, e.tag.Quiet)
    (hafter : Between after) :
    bodyEntries (elements.flatMap Element.written ++ after) =
      elements.mapM (·.entry StartTag.supplier?) := by
  induction elements with
  | nil => exact bodyEntries_of_between hafter
  | cons e elements ih =>
      have hrest := ih (fun e he => htight e (List.mem_cons_of_mem _ he))
        (fun e he => hquiet e (List.mem_cons_of_mem _ he))
      rw [List.flatMap_cons, List.append_assoc, (htight e List.mem_cons_self).bodyEntries_append
        (hquiet e List.mem_cons_self), hrest, List.mapM_cons]
      exact bind_congr fun entry => (bind_pure_comp _ _).symm

theorem tight_of_elements_read {elements : List Element} {entries : List (String × String)}
    {after : List Char} (hquiet : ∀ e ∈ elements, e.tag.Quiet)
    (hsupplier : ∀ e ∈ elements, e.tag.supplier? = e.tag.key?)
    (hothers : ∀ e ∈ elements, ∀ a ∈ e.tag.attributes, a.name ≠ "key".toList → '>' ∉ a.raw)
    (hentries : elements.mapM (·.entry StartTag.supplier?) = .ok entries)
    (h : bodyEntries (elements.flatMap Element.written ++ after) = .ok entries) :
    ∀ e ∈ elements, e.Tight := by
  induction elements generalizing entries with
  | nil => exact fun e he => absurd he List.not_mem_nil
  | cons e elements ih =>
      rw [List.mapM_cons] at hentries
      obtain ⟨entry, hentry, hmap⟩ := exists_of_bind_ok hentries
      obtain ⟨entries', hrest, hcons⟩ := exists_of_bind_ok hmap
      cases hcons
      rw [List.flatMap_cons, List.append_assoc] at h
      obtain ⟨htight, hread⟩ := Element.tight_of_read (hquiet e List.mem_cons_self)
        (hsupplier e List.mem_cons_self) (hothers e List.mem_cons_self) hentry h
      have hothers' := ih (fun e he => hquiet e (List.mem_cons_of_mem _ he))
        (fun e he => hsupplier e (List.mem_cons_of_mem _ he))
        (fun e he => hothers e (List.mem_cons_of_mem _ he)) hrest hread
      exact List.forall_mem_cons.2 ⟨htight, hothers'⟩

end LayeredConfig.Format.Xml
