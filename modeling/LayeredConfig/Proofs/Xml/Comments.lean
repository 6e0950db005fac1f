import LayeredConfig.Proofs.Text.Search
import LayeredConfig.Proofs.Xml.RoundTrip

/-!
Comments in an XML document. The comments of a text in which none is unfinished are removed
whatever follows, so a comment between two texts leaves no trace, whatever is written in it, as
long as its end is not found too early: the sign that ends it is searched from the opening sign on,
whose hyphens a comment that starts with `>` or `->` takes for its own end.
-/

namespace LayeredConfig.Format.Xml

open Text (splitFirst? dropPrefix? dropPrefix?_append dropPrefix?_eq_some_iff Arises
  eq_append_of_splitFirst? splitFirst?_self splitFirst?_append_right splitFirst?_eq_none_iff
  splitFirst?_clear splitFirst?_clear_append not_arises_of_head)

theorem stripComments_of_splitFirst? {s before after comment rest : List Char}
    (hopen : splitFirst? "<!--".toList s = some (before, after))
    (hclose : splitFirst? "-->".toList ("<!--".toList ++ after) = some (comment, rest)) :
    stripComments s = (before ++ ·) <$> stripComments rest := by
  rw [stripComments_eq, hopen]
  simp only [hclose]

theorem stripComments_clear {a s : List Char} (ha : ¬ "<!--".toList <:+: a)
    (hs : ¬ Arises "<!--".toList a s) : stripComments (a ++ s) = (a ++ ·) <$> stripComments s := by
  rw [stripComments_eq (a ++ s), stripComments_eq s, splitFirst?_clear ha hs]
  cases splitFirst? "<!--".toList s with
  | none => rfl
  | some found =>
      obtain ⟨before, after⟩ := found
      simp only [Option.map_some]
      cases splitFirst? "-->".toList ("<!--".toList ++ after) with
      | none => rfl
      | some found' =>
          simp only [Functor.map_map, List.append_assoc]

/-- No comment of a text is unfinished: after each sign that opens one stands a sign that ends one,
which may share the hyphens with it. -/
def Closed (s : List Char) : Prop :=
  ∀ before after, s = before ++ ("<!--".toList ++ after) → "-->".toList <:+: "--".toList ++ after

theorem Closed.of_append {before after : List Char} (h : Closed (before ++ after)) :
    Closed after := by
  rintro before' after' rfl
  refine h (before ++ before') after' ?_
  rw [List.append_assoc]

theorem closed_iff (s : List Char) :
    Closed s ↔ ∀ t ∈ s.tails, ∀ after ∈ dropPrefix? "<!--".toList t,
      "-->".toList <:+: "--".toList ++ after := by
  constructor
  · intro h t ht after hafter
    obtain ⟨before, rfl⟩ := (List.mem_tails _ _).1 ht
    exact h before after (congrArg (before ++ ·) (dropPrefix?_eq_some_iff.1 hafter))
  · rintro h before after rfl
    exact h _ ((List.mem_tails _ _).2 (List.suffix_append ..)) after (dropPrefix?_append ..)

instance : DecidablePred Closed := fun s => decidable_of_iff' _ (closed_iff s)

/-- The comments of a text without unfinished ones are removed whatever follows it. -/
theorem Closed.stripComments_append {a : List Char} (h : Closed a) :
    ∃ bare, ∀ s, ¬ Arises "<!--".toList a s →
      stripComments (a ++ s) = (bare ++ ·) <$> stripComments s := by
  induction hlength : a.length using Nat.strongRecOn generalizing a with
  | _ n ih =>
      subst hlength
      cases hopen : splitFirst? "<!--".toList a with
      | none => exact ⟨a, fun s => stripComments_clear (splitFirst?_eq_none_iff.1 hopen)⟩
      | some found =>
          obtain ⟨before, after⟩ := found
          have ha := eq_append_of_splitFirst? hopen
          rw [List.append_assoc] at ha
          cases hclose : splitFirst? "-->".toList ("<!--".toList ++ after) with
          | none =>
              have hends : "-->".toList <:+: "<!".toList ++ ("--".toList ++ after) :=
                (h before after ha).trans (List.suffix_append ..).isInfix
              exact absurd hends (splitFirst?_eq_none_iff.1 hclose)
          | some found' =>
              obtain ⟨comment, rest⟩ := found'
              have hrest := eq_append_of_splitFirst? hclose
              have hsuffix : a = (before ++ (comment ++ "-->".toList)) ++ rest := by
                rw [ha, hrest, List.append_assoc, List.append_assoc, List.append_assoc]
              have hshort : rest.length < a.length := by
                have hends : "-->".toList.length = 3 := rfl
                rw [hsuffix]
                simp only [List.length_append]
                omega
              obtain ⟨bare, hbare⟩ := ih rest.length hshort (hsuffix ▸ h).of_append rfl
              refine ⟨before ++ bare, fun s hs => ?_⟩
              have hs' : ¬ Arises "<!--".toList rest s := fun hrest' =>
                hs (hrest'.of_suffix (hsuffix ▸ List.suffix_append ..))
              rw [stripComments_of_splitFirst? (splitFirst?_append_right hopen s)
                (splitFirst?_append_right hclose s), hbare s hs']
              simp only [Functor.map_map, List.append_assoc]

theorem not_arises_ending (a s : List Char) : ¬ Arises "-->".toList a ("-->".toList ++ s) := by
  rintro ⟨u, v, hmarker, hu, hv, -, hleads⟩
  have hlist : "-->".toList = ['-', '-', '>'] := rfl
  rw [hlist] at hmarker hleads
  rcases u with _ | ⟨c, _ | ⟨d, _ | ⟨e, u⟩⟩⟩
  · exact hu rfl
  · cases hmarker
    simp at hleads
  · cases hmarker
    simp at hleads
  · simp only [List.cons_append, List.cons.injEq, List.nil_eq, List.append_eq_nil_iff] at hmarker
    exact hv hmarker.2.2.2.2

/-- The signs that open and end a comment share hyphens only where its text starts with what is
left of the sign that ends it. -/
theorem ending_not_held {body : List Char} (hbody : ¬ "-->".toList <:+: body)
    (hstart : ¬ ">".toList <+: body ∧ ¬ "->".toList <+: body) :
    ¬ "-->".toList <:+: "<!--".toList ++ body := by
  have hopening : "<!--".toList = ['<', '!', '-', '-'] := rfl
  have hending : "-->".toList = ['-', '-', '>'] := rfl
  have hsign : ">".toList = ['>'] := rfl
  have hsign' : "->".toList = ['-', '>'] := rfl
  rw [hsign, hsign'] at hstart
  rw [hending] at hbody ⊢
  simp [hopening, List.infix_cons_iff, hbody, hstart]

theorem stripComments_comment {body : List Char} (hbody : ¬ "-->".toList <:+: body)
    (hstart : ¬ ">".toList <+: body ∧ ¬ "->".toList <+: body) (s : List Char) :
    stripComments ("<!--".toList ++ (body ++ ("-->".toList ++ s))) = stripComments s := by
  have hopen : splitFirst? "<!--".toList ("<!--".toList ++ (body ++ ("-->".toList ++ s))) =
      some ([], body ++ ("-->".toList ++ s)) := splitFirst?_self _ (by decide)
  have hclose := splitFirst?_clear_append (ending_not_held hbody hstart)
    (not_arises_ending ("<!--".toList ++ body) s)
  rw [List.append_assoc] at hclose
  rw [stripComments_of_splitFirst? hopen hclose]
  exact id_map (stripComments s)

theorem stripComments_early {body left : List Char}
    (hstart : body = ">".toList ++ left ∨ body = "->".toList ++ left) (s : List Char) :
    stripComments ("<!--".toList ++ (body ++ s)) = stripComments (left ++ s) := by
  have hopen : splitFirst? "<!--".toList ("<!--".toList ++ (body ++ s)) = some ([], body ++ s) :=
    splitFirst?_self _ (by decide)
  rcases hstart with rfl | rfl
  · have hclose : splitFirst? "-->".toList ("<!--".toList ++ (">".toList ++ left ++ s)) =
        some ("<!".toList, left ++ s) := rfl
    rw [stripComments_of_splitFirst? hopen hclose]
    exact id_map (stripComments (left ++ s))
  · have hclose : splitFirst? "-->".toList ("<!--".toList ++ ("->".toList ++ left ++ s)) =
        some ("<!-".toList, left ++ s) := rfl
    rw [stripComments_of_splitFirst? hopen hclose]
    exact id_map (stripComments (left ++ s))

theorem parse_congr {s t : String} (h : stripComments s.toList = stripComments t.toList) :
    parse s = parse t := by
  rw [parse, parse, entriesOf, entriesOf, h]

/-- A comment may be put between two texts of which the first holds no unfinished one, unless one
arises where they meet: the document is read as without it, whatever is written in the comment. Only
a comment that starts with `>` or `->` is taken for finished there, so that the remainder of it is
read as a part of the document. -/
theorem parse_commented (a b body : String) (ha : Closed a.toList)
    (hab : ¬ Arises "<!--".toList a.toList b.toList) (hbody : ¬ "-->".toList <:+: body.toList) :
    (¬ ">".toList <+: body.toList ∧ ¬ "->".toList <+: body.toList →
      parse (a ++ ("<!--" ++ body ++ "-->") ++ b) = parse (a ++ b)) ∧
    ∀ left : String, body = ">" ++ left ∨ body = "->" ++ left →
      ¬ Arises "<!--".toList a.toList (left ++ "-->" ++ b).toList →
        parse (a ++ ("<!--" ++ body ++ "-->") ++ b) = parse (a ++ (left ++ "-->") ++ b) := by
  obtain ⟨bare, hbare⟩ := ha.stripComments_append
  have hopening : ¬ Arises "<!--".toList a.toList
      ("<!--".toList ++ (body.toList ++ ("-->".toList ++ b.toList))) := by
    have hhead : ∀ d ∈ ("<!--".toList ++ (body.toList ++ ("-->".toList ++ b.toList))).head?,
        d ∉ "!--".toList := by
      rintro d ⟨⟩
      decide
    exact not_arises_of_head hhead a.toList
  have hwhole : (a ++ ("<!--" ++ body ++ "-->") ++ b).toList =
      a.toList ++ ("<!--".toList ++ (body.toList ++ ("-->".toList ++ b.toList))) := by
    simp only [String.toList_append, List.append_assoc]
  constructor
  · intro hstart
    apply parse_congr
    rw [hwhole, hbare _ hopening, stripComments_comment hbody hstart, String.toList_append,
      hbare _ hab]
  · intro left hstart hleft
    have hstart' : body.toList = ">".toList ++ left.toList ∨
        body.toList = "->".toList ++ left.toList := by
      rcases hstart with rfl | rfl
      · exact .inl String.toList_append
      · exact .inr String.toList_append
    have hremainder : (a ++ (left ++ "-->") ++ b).toList =
        a.toList ++ (left ++ "-->" ++ b).toList := by
      simp only [String.toList_append, List.append_assoc]
    apply parse_congr
    rw [hwhole, hbare _ hopening, stripComments_early hstart', hremainder, hbare _ hleft]
    simp only [String.toList_append, List.append_assoc]

namespace Sample

/-- A comment between two entries, with an entry, a sign that opens a comment and quotation marks
in it. -/
theorem dropped_comment :
    parse ("<properties><!-- > --><entry key='a'>1</entry>" ++
        ("<!--" ++ "<entry key=\"b\">\"2</entry> <! - '>" ++ "-->") ++
        "<entry key='c'>3</entry></properties>") = .ok (.ofList [("a", "1"), ("c", "3")]) := by
  have hwhole : parse ("<properties><!-- > --><entry key='a'>1</entry>" ++
      "<entry key='c'>3</entry></properties>") = .ok (.ofList [("a", "1"), ("c", "3")]) := by
    decide +kernel
  have hjunction : ¬ Arises "<!--".toList "<properties><!-- > --><entry key='a'>1</entry>".toList
      "<entry key='c'>3</entry></properties>".toList := by
    refine not_arises_of_head ?_ _
    rintro d ⟨⟩
    decide
  obtain ⟨hdropped, -⟩ := parse_commented "<properties><!-- > --><entry key='a'>1</entry>"
    "<entry key='c'>3</entry></properties>" "<entry key=\"b\">\"2</entry> <! - '>" (by decide)
    hjunction (by decide)
  exact (hdropped (by decide)).trans hwhole

/-- The text of a comment that starts with `>` is read as a part of the document. -/
theorem angled_comment_read :
    parse ("<properties>" ++ ("<!--" ++ "><entry key='x'>1</entry>" ++ "-->") ++ "</properties>") =
        .ok (.ofList [("x", "1")]) ∧
      parse ("<properties>" ++ "</properties>") = .ok .empty := by
  decide +kernel

end Sample

end LayeredConfig.Format.Xml
