import LayeredConfig.Proofs.Xml.Elements

/-!
Documents as they are written: a root `properties` with elements `entry`, and what is read from
them. If no value looks like the attribute `key`, a document is read as the entries of its elements
provided that its tags end where the searches for `>` and for the literal end tags find their ends.
-/

namespace LayeredConfig.Format.Xml

open Text (splitFirst? splitLast? splitFirst?_append splitFirst?_clear_append
  splitLast?_clear_append splitLast?_eq_none_iff not_infix_append not_infix_cons not_infix_skip
  not_arises_of_head forall_of_all)

/-- What stands between the tags of the root, with the white space of the end tag. -/
structure Body where
  elements : List Element
  after : List Char
  endSpace : List Char
  between : Between after
  blank : ∀ c ∈ endSpace, c ∈ spaces

def Body.inner (b : Body) : List Char := b.elements.flatMap Element.written ++ b.after

/-- A start tag that a value cuts off is not taken for closed there: no slash stands before the
first `>`. -/
def StartTag.Open (t : StartTag) : Prop := (t.written.takeWhile (· ≠ '>')).getLast? ≠ some '/'

instance : DecidablePred StartTag.Open := fun t =>
  inferInstanceAs (Decidable ((t.written.takeWhile (· ≠ '>')).getLast? ≠ some '/'))

/-- A document without comments; without a body the root is closed by its start tag. -/
structure Document where
  prolog : List Char
  tag : StartTag
  body : Option Body
  epilog : List Char
  before : ¬ "<!--".toList <:+: prolog ∧ ¬ "<properties".toList <:+: prolog
  after : ¬ "<!--".toList <:+: epilog ∧ ¬ "</properties>".toList <:+: epilog

namespace Document

variable (d : Document)

def ending : List Char :=
  match d.body with
  | none => "/>".toList ++ d.epilog
  | some b => '>' :: (b.inner ++ ("</properties".toList ++ (b.endSpace ++ '>' :: d.epilog)))

def written : List Char := d.prolog ++ ("<properties".toList ++ (d.tag.written ++ d.ending))

def elements : List Element := d.body.elim [] Body.elements

/-- The entries of the elements, or the fault of the first one that has none. -/
def entries (supplier : StartTag → Option Attribute) :
    Except MarkupFault (List (String × String)) :=
  d.elements.mapM (·.entry supplier)

/-- The result for a document whose keys the given attributes supply. -/
def reading (supplier : StartTag → Option Attribute) : Except DocumentFault (KeyMap String) :=
  match d.entries supplier with
  | .ok entries => .ok (.ofList entries)
  | .error fault => .error (.markup fault)

/-- The root is taken for closed by its start tag if it is and only then, and its end tag is written
without white space. -/
structure Enclosed : Prop where
  root : d.tag.Open
  closed : d.body = none → ∀ a ∈ d.tag.attributes, '>' ∉ a.raw
  body : ∀ b ∈ d.body, b.endSpace = []

/-- The tags end where the searches for their ends find them. -/
structure Tight : Prop extends d.Enclosed where
  elements : ∀ e ∈ d.elements, e.Tight

end Document

theorem bodyEntries_skip {a : List Char} (h : '<' ∉ a) (s : List Char) :
    bodyEntries (a ++ s) = bodyEntries s := by
  have hskip : splitFirst? "<entry".toList (a ++ s) =
      (splitFirst? "<entry".toList s).map fun r => (a ++ r.1, r.2) :=
    Text.splitFirst?_skip h _ s
  rw [bodyEntries_eq (a ++ s), bodyEntries_eq s, hskip]
  cases splitFirst? "<entry".toList s <;> rfl

/-- The first `>` cuts a start tag off, the one that ends it or one in a value before. -/
theorem StartTag.Open.exists_cut {t : StartTag} (h : t.Open) {w : List Char} (hw : w <+: ['>'])
    (hgt : '>' ∈ t.written ++ w) (s : List Char) :
    ∃ cut left, splitFirst? ['>'] (t.written ++ (w ++ s)) = some (cut, left ++ s) ∧
      cut.getLast? ≠ some '/' ∧ '<' ∉ left := by
  obtain ⟨cut, left, hsplit, hcut⟩ := List.eq_append_cons_of_mem hgt
  have hwhole : (t.written ++ w).takeWhile (· ≠ '>') = cut := by
    have hall : ∀ c ∈ cut, decide (c ≠ '>') = true := fun c hc =>
      decide_eq_true fun heq => hcut (heq ▸ hc)
    rw [hsplit, List.takeWhile_append_of_pos hall, List.takeWhile_cons_of_neg (by simp),
      List.append_nil]
  have htake : t.written.takeWhile (· ≠ '>') = cut := by
    have hnone : w.takeWhile (· ≠ '>') = [] := by
      rcases List.prefix_cons_iff.1 hw with rfl | ⟨rest, rfl, -⟩
      · rfl
      · exact List.takeWhile_cons_of_neg (by simp)
    rw [List.takeWhile_append, hnone, List.append_nil] at hwhole
    split at hwhole
    · rename_i hlength
      exact ((List.takeWhile_prefix _).eq_of_length hlength).trans hwhole
    · exact hwhole
  refine ⟨cut, left, ?_, htake ▸ h, fun hmem => ?_⟩
  · rw [← List.append_assoc, hsplit, List.append_assoc]
    exact splitFirst?_append hcut [] _
  · have hwritten : '<' ∈ t.written ++ w :=
      hsplit ▸ List.mem_append_right _ (List.mem_cons_of_mem _ hmem)
    refine absurd hwritten (List.not_mem_append t.lt_not_mem_written fun hmem => ?_)
    exact absurd (hw.subset hmem) (by decide)

namespace Document

variable {d : Document}

theorem not_infix_ending {ms : List Char} (hms : '<' ∉ ms)
    (hbetween : ∀ t, Between t → ¬ '<' :: ms <:+: t) (hstart : ∀ t, ¬ ms <+: "entry".toList ++ t)
    (hend : ∀ t, ¬ ms <+: "/entry".toList ++ t) (hepilog : ¬ '<' :: ms <:+: d.epilog)
    (hclose : ∀ b ∈ d.body, ¬ ms <+: "/properties".toList ++ (b.endSpace ++ '>' :: d.epilog)) :
    ¬ '<' :: ms <:+: d.ending := by
  rw [ending]
  cases hbody : d.body with
  | none => exact not_infix_skip (by decide) hepilog
  | some b =>
      have hspace : '<' ∉ b.endSpace := not_mem_of_blank b.blank (by decide)
      have hclosed : ¬ '<' :: ms <:+:
          '<' :: ("/properties".toList ++ (b.endSpace ++ (['>'] ++ d.epilog))) :=
        not_infix_cons (hclose b hbody) (not_infix_skip (by decide) (not_infix_skip hspace
          (not_infix_skip (by decide) hepilog)))
      have hafter := not_infix_append (hbetween b.after b.between)
        (not_arises_of_head (by simpa using hms) b.after) hclosed
      have hinner : ¬ '<' :: ms <:+: b.elements.flatMap Element.written ++
          (b.after ++ '<' :: ("/properties".toList ++ (b.endSpace ++ (['>'] ++ d.epilog)))) := by
        generalize b.elements = elements
        induction elements with
        | nil => exact hafter
        | cons e elements ih =>
            rw [List.flatMap_cons, List.append_assoc]
            exact e.not_infix_written_append hms hbetween hstart hend ih
      have hsign := not_infix_skip (a := ['>']) (by decide) hinner
      simpa [Body.inner] using hsign

theorem uncommented_written (d : Document) : Uncommented d.written := by
  have hending : ¬ '<' :: "!--".toList <:+: d.ending :=
    d.not_infix_ending (by decide) (fun _ h => h.uncommented) (fun t => by simp) (fun t => by simp)
      d.after.1 (fun b _ => by simp)
  have hroot : ¬ '<' :: "!--".toList <:+:
      '<' :: ("properties".toList ++ (d.tag.written ++ d.ending)) :=
    not_infix_cons (by simp) (not_infix_skip (by decide)
      (not_infix_skip d.tag.lt_not_mem_written hending))
  rw [Uncommented, Text.splitFirst?_eq_none_iff, written]
  refine not_infix_append d.before.1 (not_arises_of_head ?_ d.prolog) hroot
  rintro c ⟨⟩
  decide

theorem splitFirst?_root (d : Document) :
    splitFirst? "<properties".toList d.written = some (d.prolog, d.tag.written ++ d.ending) := by
  refine splitFirst?_clear_append d.before.2 (not_arises_of_head ?_ d.prolog)
  rintro c ⟨⟩
  decide

theorem Enclosed.rootBody_written (henclosed : d.Enclosed) :
    ∃ left, '<' ∉ left ∧ rootBody d.written = .ok (left ++ d.body.elim [] Body.inner) := by
  rw [rootBody, d.splitFirst?_root]
  dsimp only
  cases hbody : d.body with
  | none =>
      have hgt : '>' ∉ d.tag.written ++ ['/'] := List.not_mem_append
        (d.tag.not_mem_written (by decide) (henclosed.closed hbody)) (by decide)
      have htag : splitFirst? ['>'] (d.tag.written ++ d.ending) =
          some (d.tag.written ++ ['/'], d.epilog) := by
        rw [← splitFirst?_append hgt [] d.epilog, ending, hbody, List.append_assoc]
        rfl
      refine ⟨[], List.not_mem_nil, ?_⟩
      rw [htag]
      simp
  | some b =>
      obtain ⟨cut, left, htag, hlast, hleft⟩ := henclosed.root.exists_cut List.prefix_rfl
        (List.mem_append_right _ List.mem_cons_self)
        (b.inner ++ ("</properties>".toList ++ d.epilog))
      have hclose : splitLast? "</properties>".toList
          (left ++ b.inner ++ ("</properties>".toList ++ d.epilog)) =
            some (left ++ b.inner, d.epilog) :=
        splitLast?_clear_append
          (show "</properties>".toList = "</properties".toList ++ ['>'] from rfl) (by decide)
          d.after.2 _
      refine ⟨left, hleft, ?_⟩
      have hending : d.ending =
          ['>'] ++ (b.inner ++ ("</properties>".toList ++ d.epilog)) := by
        rw [ending, hbody]
        simp only [henclosed.body b hbody]
        simp
      rw [hending, htag]
      simp only [hlast, if_false]
      rw [← List.append_assoc, hclose]
      rfl

theorem enclosed_of_rootBody {s : List Char} (hroot : d.tag.Open) (h : rootBody d.written = .ok s) :
    d.Enclosed := by
  rw [rootBody, d.splitFirst?_root] at h
  dsimp only at h
  refine ⟨hroot, ?_, ?_⟩
  · -- The tag is cut off by a value, and the end of the body that follows then is nowhere.
    intro hbody a ha hcut
    have hgt : '>' ∈ d.tag.written ++ [] := by
      rw [List.append_nil]
      refine List.mem_append_left _ (List.mem_flatMap.2 ⟨a, ha, ?_⟩)
      exact List.mem_append_right _ (List.mem_append_left _ hcut)
    obtain ⟨cut, left, htag, hlast, hleft⟩ :=
      hroot.exists_cut List.nil_prefix hgt ("/>".toList ++ d.epilog)
    have hnone : splitLast? "</properties>".toList (left ++ ("/>".toList ++ d.epilog)) = none :=
      splitLast?_eq_none_iff.2
        (not_infix_skip (m := '<') hleft (not_infix_skip (by decide) d.after.2))
    rw [List.nil_append] at htag
    rw [ending, hbody, htag] at h
    simp only [hlast, if_false, hnone, reduceCtorEq] at h
  · -- With white space in the end tag, the end of the root is nowhere either.
    intro b hbody
    by_contra hspace
    obtain ⟨c, space, hc⟩ := List.exists_cons_of_ne_nil hspace
    have hne : '>' ≠ c := by
      rintro rfl
      exact absurd (b.blank '>' (hc ▸ List.mem_cons_self)) (by decide)
    have hending : ¬ '<' :: "/properties>".toList <:+: d.ending := by
      refine d.not_infix_ending (by decide) (fun _ h => h.noEnd) (fun t => by simp)
        (fun t => by simp) d.after.2 fun b' hb' => ?_
      cases hbody.symm.trans hb'
      simp [hc, hne]
    obtain ⟨cut, left, htag, hlast, hleft⟩ := hroot.exists_cut List.prefix_rfl
      (List.mem_append_right _ List.mem_cons_self)
      (b.inner ++ ("</properties".toList ++ (b.endSpace ++ '>' :: d.epilog)))
    rw [ending, hbody] at hending h
    have hnone : splitLast? "</properties>".toList (left ++
        (b.inner ++ ("</properties".toList ++ (b.endSpace ++ '>' :: d.epilog)))) = none :=
      splitLast?_eq_none_iff.2 (not_infix_skip (m := '<') hleft
        fun hheld => hending (List.infix_cons hheld))
    rw [List.singleton_append] at htag
    dsimp only at h
    rw [htag] at h
    simp only [hlast, if_false, hnone, reduceCtorEq] at h

theorem entriesOf_eq (d : Document) : entriesOf d.written = rootBody d.written >>= bodyEntries := by
  rw [entriesOf, stripComments_of_uncommented d.uncommented_written]
  rfl

theorem Enclosed.entriesOf_written (henclosed : d.Enclosed) :
    entriesOf d.written = bodyEntries (d.body.elim [] Body.inner) := by
  obtain ⟨left, hleft, hbody⟩ := henclosed.rootBody_written
  rw [d.entriesOf_eq, hbody]
  exact bodyEntries_skip hleft _

theorem Tight.entriesOf_written (htight : d.Tight) (hquiet : ∀ e ∈ d.elements, e.tag.Quiet) :
    entriesOf d.written = d.entries StartTag.supplier? := by
  have helements := htight.elements
  rw [htight.toEnclosed.entriesOf_written, entries]
  rw [Document.elements] at hquiet helements ⊢
  cases hbody : d.body with
  | none => exact bodyEntries_of_between ⟨by decide, by decide, by decide⟩
  | some b =>
      rw [hbody] at hquiet helements
      exact bodyEntries_elements helements hquiet b.between

/-- If no value but that of a key holds a `>`, a document is read as its elements only where they
are read for themselves. -/
theorem Enclosed.tight_of_read {read : List (String × String)} (henclosed : d.Enclosed)
    (hquiet : ∀ e ∈ d.elements, e.tag.Quiet)
    (hsupplier : ∀ e ∈ d.elements, e.tag.supplier? = e.tag.key?)
    (hothers : ∀ e ∈ d.elements, ∀ a ∈ e.tag.attributes, a.name ≠ "key".toList → '>' ∉ a.raw)
    (hentries : d.entries StartTag.supplier? = .ok read) (h : entriesOf d.written = .ok read) :
    d.Tight := by
  refine ⟨henclosed, ?_⟩
  rw [henclosed.entriesOf_written] at h
  rw [entries] at hentries
  rw [Document.elements] at hquiet hsupplier hothers hentries ⊢
  cases hbody : d.body with
  | none => exact fun e he => absurd he List.not_mem_nil
  | some b =>
      rw [hbody] at hquiet hsupplier hothers hentries h
      exact tight_of_elements_read hquiet hsupplier hothers hentries h

theorem entries_congr {f g : StartTag → Option Attribute}
    (h : ∀ e ∈ d.elements, f e.tag = g e.tag) : d.entries f = d.entries g := by
  rw [entries, entries]
  generalize d.elements = elements at h
  induction elements with
  | nil => rfl
  | cons e elements ih =>
      have hentry : e.entry f = e.entry g := by
        rw [Element.entry, Element.entry, h e List.mem_cons_self]
      rw [List.mapM_cons, List.mapM_cons, hentry, ih fun e he => h e (List.mem_cons_of_mem _ he)]

theorem entries_eq_error {f : StartTag → Option Attribute} (h : ∃ e ∈ d.elements, f e.tag = none) :
    d.entries f = .error .noKey := by
  have hfails : ∃ e ∈ d.elements, ∀ entry, e.entry f ≠ .ok entry := by
    obtain ⟨e, he, hnone⟩ := h
    refine ⟨e, he, fun entry hentry => ?_⟩
    obtain ⟨a, ha, -⟩ := Element.entry_eq_ok hentry
    rw [hnone] at ha
    cases ha
  obtain ⟨e, -, cause, hcause, hread⟩ := exists_of_mapM_fails hfails
  rw [entries, hread]
  rw [Element.entry] at hcause
  cases hkey : f e.tag with
  | none =>
      rw [hkey] at hcause
      exact congrArg _ (Except.error.inj hcause).symm
  | some a =>
      rw [hkey] at hcause
      cases hcause

end Document

theorem parse_of_entries {d : Document} {f : StartTag → Option Attribute}
    (h : entriesOf d.written = d.entries f) : parse (String.ofList d.written) = d.reading f := by
  cases hentries : d.entries f with
  | ok entries => rw [parse, String.toList_ofList, h, Document.reading, hentries]
  | error fault => rw [parse, String.toList_ofList, h, Document.reading, hentries]

/-- The key of an element is the value of its attribute of that name, and an element without one
makes the document fail, if nothing else in the start tags looks like that attribute. Of several
names that are taken for `key`, the first one supplies it; and a value that looks like the attribute
does, where no attribute before it does. -/
theorem parse_keys (d : Document) (htight : d.Tight) :
    ((∀ e ∈ d.elements, e.tag.Unambiguous) →
      parse (String.ofList d.written) = d.reading StartTag.key? ∧
        ((∃ e ∈ d.elements, e.tag.key? = none) →
          parse (String.ofList d.written) = .error (.markup .noKey))) ∧
    ((∀ e ∈ d.elements, e.tag.Quiet) →
      parse (String.ofList d.written) = d.reading StartTag.supplier?) ∧
    ∀ (t : StartTag) (before after : List Attribute) (a : Attribute),
      t.attributes = before ++ a :: after → (∀ b ∈ before, ¬ b.Supplies ∧ b.Quiet) →
        ¬ a.Supplies → ¬ a.Quiet → ∃ shown value, a.raw = shown ++ '=' :: value ∧
          keyAttribute? t.written = quotedValue? ((value ++
            a.quote :: (after.flatMap Attribute.written ++ t.space)).dropWhile Text.isWhite) := by
  refine ⟨fun hclear => ?_, fun hquiet => ?_, fun t before after a => ?_⟩
  · have hread : parse (String.ofList d.written) = d.reading StartTag.key? := by
      apply parse_of_entries
      rw [htight.entriesOf_written fun e he => (hclear e he).quiet]
      exact d.entries_congr fun e he => (hclear e he).supplier?_eq
    refine ⟨hread, fun hnone => ?_⟩
    rw [hread, Document.reading, d.entries_eq_error hnone]
  · exact parse_of_entries (htight.entriesOf_written hquiet)
  · exact StartTag.keyAttribute?_mistaken

namespace Sample

def titleAttribute : Attribute where
  space := [' ']
  name := "title".toList
  beforeSign := []
  afterSign := []
  quote := '"'
  raw := "the key".toList
  text := "the key".toList
  apart := by decide
  blank := forall_of_all (by decide)
  plain := forall_of_all (by decide)
  quoting := .inl rfl
  unquoted := by decide
  escaped := escaped_of_not_mem (by decide)

def keyAttribute (key : Char) (plain : key ∉ ['&', '<', '\'']) : Attribute where
  space := ['\n', ' ']
  name := "key".toList
  beforeSign := []
  afterSign := [' ']
  quote := '\''
  raw := [key]
  text := [key]
  apart := by decide
  blank := forall_of_all (by decide)
  plain := forall_of_all (by decide)
  quoting := .inr rfl
  unquoted := fun h => plain (List.mem_singleton.1 h ▸ by decide)
  escaped := .plain (fun h => plain (by simp [h])) (fun h => plain (by simp [h])) .nil

/-- An element with a title, and one that is closed by its start tag. -/
def document : Document where
  prolog := "<?xml version=\"1.0\"?>".toList
  tag := {
    attributes := [titleAttribute]
    space := []
    distinct := by decide
    blank := forall_of_all (by decide) }
  body := some {
    elements := [
      { gap := "\n<comment>one entry</comment>".toList
        tag := {
          attributes := [titleAttribute, keyAttribute 'a' (by decide)]
          space := []
          distinct := by decide
          blank := forall_of_all (by decide) }
        content := some {
          raw := "1 &lt; 2".toList
          text := "1 < 2".toList
          endSpace := []
          escaped := .plain (by decide) (by decide) (.plain (by decide) (by decide)
            (.reference .lt (escaped_of_not_mem (by decide))))
          blank := forall_of_all (by decide) }
        between := ⟨by decide, by decide, by decide⟩ },
      { gap := ['\n']
        tag := {
          attributes := [keyAttribute 'b' (by decide)]
          space := [' ']
          distinct := by decide
          blank := forall_of_all (by decide) }
        content := none
        between := ⟨by decide, by decide, by decide⟩ }]
    after := ['\n']
    endSpace := []
    between := ⟨by decide, by decide, by decide⟩
    blank := forall_of_all (by decide) }
  epilog := ['\n']
  before := by decide
  after := by decide

example : document.written =
    "<?xml version=\"1.0\"?><properties title=\"the key\">".toList ++
      "\n<comment>one entry</comment>".toList ++
      "<entry title=\"the key\"\n key= 'a'>1 &lt; 2</entry>".toList ++
      "\n<entry\n key= 'b' />\n</properties>\n".toList := by decide +kernel

theorem document_tight : document.Tight where
  root := by decide
  closed := by decide
  body := by decide
  elements := by
    refine List.forall_mem_cons.2 ⟨⟨by decide, by decide⟩, ?_⟩
    exact List.forall_mem_singleton.2 ⟨by decide, by decide⟩

theorem document_unambiguous : ∀ e ∈ document.elements, e.tag.Unambiguous := by decide

theorem document_keys :
    parse (String.ofList document.written) = .ok (.ofList [("a", "1 < 2"), ("b", "")]) := by
  obtain ⟨hkeys, -, -⟩ := parse_keys document document_tight
  exact (hkeys document_unambiguous).1.trans rfl

/-- A value and a name that look like the attribute `key` supply the key in its place. -/
theorem quoted_key_taken :
    parse "<properties><entry title=\"the key='x'\" key=\"a\">1</entry></properties>" =
        .ok (.ofList [("x", "1")]) ∧
      parse "<properties><entry keykey=\"x\" key=\"a\">1</entry></properties>" =
        .ok (.ofList [("x", "1")]) := by
  decide +kernel

end Sample

/-- If nothing in the start tags is mistaken for a key and each element has one, a document is read
as the entries of its elements where no tag is ended too early and no end tag is missed; and if no
value but that of a key holds a `>`, it is read so only there. -/
theorem parse_elements (d : Document) {entries : List (String × String)}
    (hkeys : d.entries StartTag.key? = .ok entries)
    (hclear : ∀ e ∈ d.elements, e.tag.Unambiguous) :
    (d.Tight → parse (String.ofList d.written) = .ok (.ofList entries)) ∧
    (d.tag.Open →
      (∀ e ∈ d.elements, ∀ a ∈ e.tag.attributes, a.name ≠ "key".toList → '>' ∉ a.raw) →
        entriesOf d.written = .ok entries → d.Tight) := by
  have hquiet : ∀ e ∈ d.elements, e.tag.Quiet := fun e he => (hclear e he).quiet
  have hsupplier : ∀ e ∈ d.elements, e.tag.supplier? = e.tag.key? := fun e he =>
    (hclear e he).supplier?_eq
  have hentries : d.entries StartTag.supplier? = .ok entries :=
    (d.entries_congr hsupplier).trans hkeys
  constructor
  · intro htight
    rw [parse_of_entries (htight.entriesOf_written hquiet), Document.reading, hentries]
  · intro hroot hothers hread
    have hfound := hread
    rw [d.entriesOf_eq] at hfound
    obtain ⟨s, hbody, -⟩ := exists_of_bind_ok hfound
    exact (Document.enclosed_of_rootBody hroot hbody).tight_of_read hquiet hsupplier hothers
      hentries hread

namespace Sample

theorem document_read :
    parse (String.ofList document.written) = .ok (.ofList [("a", "1 < 2"), ("b", "")]) := by
  obtain ⟨hread, -⟩ := parse_elements document
    (show document.entries StartTag.key? = .ok [("a", "1 < 2"), ("b", "")] from rfl)
    document_unambiguous
  exact hread document_tight

/-- Behind an end tag with white space in it the next element is read as a part of the text, and a
key is cut off at a `>`. -/
theorem spaced_end_missed :
    parse "<properties><entry key=\"a\">1</entry ><entry key=\"b\">2</entry></properties>" =
        .ok (.ofList [("a", "1</entry ><entry key=\"b\">2")]) ∧
      parse "<properties><entry key=\"a>b\">1</entry></properties>" =
        .error (.markup .noKey) := by
  decide +kernel

end Sample

end LayeredConfig.Format.Xml
