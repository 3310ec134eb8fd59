import TimedPatterns.Proofs.Markup.Writing
import TimedPatterns.Proofs.Text.Numeral
import TimedPatterns.Template.Basic

/-!
# Templates as elements

The markup of a template is a document: an element with the name of the template, its comment if it
has one, its locations, the place where it starts, and its edges, in this order and each on a line
of its own. The texts between the tags are written with entities, so that no label can be taken for
a tag; the names of templates and locations, which are not, have to be free of the signs of markup.
-/

namespace TimedPatterns

namespace Template

open Markup Text

/-! ### The element of a template -/

def labelElement (kind : String) : Option String → List Element
  | none => []
  | some _ => [⟨"label", [("kind", kind)], []⟩]

def locationElement (t : Template) (position : Nat) (l : Location) : Element :=
  ⟨"location", [("id", t.locationId position)],
    ⟨"name", [], []⟩ :: labelElement "invariant" l.invariant⟩

/-- The place where a template starts. -/
def initElement (t : Template) : Element := ⟨"init", [("ref", t.locationId 0)], []⟩

def edgeElement (t : Template) (e : TemplateEdge) : Element :=
  ⟨"transition", [],
    ⟨"source", [("ref", t.locationId e.source)], []⟩ ::
      ⟨"target", [("ref", t.locationId e.target)], []⟩ ::
        (labelElement "guard" e.guard ++ labelElement "synchronisation" (some e.sync))⟩

def commentElement (t : Template) : List Element :=
  (t.comment.map fun _ => ⟨"declaration", [], []⟩).toList

/-- A template as an element: its name, its comment, its locations, the place where it starts, and
its edges. -/
def element (t : Template) : Element :=
  ⟨"template", [], ⟨"name", [], []⟩ :: (t.commentElement ++ (t.locations.mapIdx t.locationElement ++
    t.initElement :: t.edges.map t.edgeElement))⟩

/-- The names of a template and of its locations hold no signs of markup. -/
structure Writable (t : Template) : Prop where
  name : Plain t.name.toList
  locations : ∀ l ∈ t.locations, '<' ∉ l.name.toList

variable {t : Template}

/-! ### Lines -/

lemma plain_toString (n : Nat) : Plain (toString n).toList := by
  intro c hc
  rw [toList_toString_nat] at hc
  have hne (d : Char) (hd : d.isDigit = false) : c ≠ d := by
    rintro rfl
    rw [isDigit_of_mem_toDigits hc] at hd
    cases hd
  simp [quoteChar, escapeChar, hne]

lemma toList_locationId (t : Template) (position : Nat) :
    (t.locationId position).toList =
      "pf_".toList ++ (t.name.toList ++ ("_".toList ++ (toString position).toList)) := by
  have hid : t.locationId position = "pf_" ++ t.name ++ "_" ++ toString position := rfl
  rw [hid]
  simp only [String.toList_append, List.append_assoc]

lemma Writable.escapeValue_locationId (h : t.Writable) (position : Nat) :
    escapeValue (t.locationId position).toList = (t.locationId position).toList := by
  rw [toList_locationId]
  exact Plain.escapeValue_eq (.append (by decide) (.append h.name (.append (by decide)
    (plain_toString position))))

lemma renderLabel_some (kind label : String) :
    renderLabel kind (some label) =
      "<label kind=\"" ++ kind ++ "\">" ++ escape label ++ "</label>" := rfl

lemma renderLocation_eq (t : Template) (position : Nat) (l : Location) :
    t.renderLocation position l =
      "  <location id=\"" ++ t.locationId position ++ "\"><name>" ++ l.name ++ "</name>"
        ++ renderLabel "invariant" l.invariant ++ "</location>\n" := rfl

lemma renderEdge_eq (t : Template) (e : TemplateEdge) :
    t.renderEdge e =
      "  <transition><source ref=\"" ++ t.locationId e.source ++ "\"/>"
        ++ ("<target ref=\"" ++ t.locationId e.target ++ "\"/>") ++ renderLabel "guard" e.guard
        ++ renderLabel "synchronisation" (some e.sync) ++ "</transition>\n" := rfl

lemma renderComment_eq (t : Template) :
    t.renderComment = (t.comment.elim "" fun comment =>
      "  <declaration>// " ++ escape comment ++ "</declaration>\n") := by
  unfold renderComment
  cases t.comment <;> rfl

lemma render_eq (t : Template) :
    t.render = "<template>\n" ++ ("  <name>" ++ t.name ++ "</name>\n") ++ t.renderComment
      ++ String.join (t.locations.mapIdx t.renderLocation)
      ++ ("  <init ref=\"" ++ t.locationId 0 ++ "\"/>\n")
      ++ String.join (t.edges.map t.renderEdge) ++ "</template>" := rfl

lemma contentText_renderLabel (kind : String) (hkind : Plain kind.toList) (label : Option String) :
    ContentText .free (labelElement kind label) (renderLabel kind label).toList := by
  cases label with
  | none => exact .nil
  | some label =>
    have htext := elementText_text "label" [("kind", kind)] rfl (isName_attribute rfl)
      (not_mem_escape label)
    rw [renderLabel_some]
    refine contentText_element ?_
    simpa [Element.tagChars, Element.attributeChars, hkind.escapeValue_eq] using htext

lemma contentText_renderLocation (h : t.Writable) {position : Nat} {l : Location}
    (hl : l ∈ t.locations) :
    ContentText .free [t.locationElement position l] (t.renderLocation position l).toList := by
  have hname := contentText_element (elementText_text "name" [] rfl rfl
    (h.locations l hl))
  have hinvariant := contentText_renderLabel "invariant" (by decide) l.invariant
  have hline := contentText_line (elementText_opened "location" [("id", t.locationId position)] rfl
    (isName_attribute rfl) (hname.append hinvariant))
  rw [renderLocation_eq]
  simpa [locationElement, Element.tagChars, Element.attributeChars, h.escapeValue_locationId]
    using hline

lemma contentText_renderEdge (h : t.Writable) (e : TemplateEdge) :
    ContentText .free [t.edgeElement e] (t.renderEdge e).toList := by
  have hsource := contentText_element (elementText_closed "source"
    [("ref", t.locationId e.source)] rfl (isName_attribute rfl))
  have htarget := contentText_element (elementText_closed "target"
    [("ref", t.locationId e.target)] rfl (isName_attribute rfl))
  have hguard := contentText_renderLabel "guard" (by decide) e.guard
  have hsync := contentText_renderLabel "synchronisation" (by decide) (some e.sync)
  have hline := contentText_line (elementText_opened "transition" [] rfl rfl
    (hsource.append (htarget.append (hguard.append hsync))))
  rw [renderEdge_eq]
  simpa [edgeElement, Element.tagChars, Element.attributeChars, h.escapeValue_locationId]
    using hline

lemma contentText_renderComment (t : Template) :
    ContentText .free t.commentElement t.renderComment.toList := by
  rw [commentElement, renderComment_eq]
  cases t.comment with
  | none => exact .nil
  | some comment =>
    have htext : '<' ∉ "// ".toList ++ (escape comment).toList := by
      rw [List.mem_append, not_or]
      exact ⟨by decide, not_mem_escape comment⟩
    have hline := contentText_line (elementText_text "declaration" [] rfl rfl htext)
    show ContentText .free [⟨"declaration", [], []⟩]
      ("  <declaration>// " ++ escape comment ++ "</declaration>\n").toList
    simpa [Element.tagChars] using hline

/-! ### Templates -/

/-- The markup of a template is read as its element. -/
theorem read_render (h : t.Writable) : Markup.read t.render = .ok t.element := by
  have hbreak : ContentText .free [] ['\n'] := contentText_text (by decide)
  have hname := contentText_line (elementText_text "name" [] rfl rfl h.name.not_mem)
  have hlocations : ContentText .free (t.locations.mapIdx t.locationElement)
      (String.join (t.locations.mapIdx t.renderLocation)).toList := by
    refine contentText_join (List.forall₂_iff_get.2 ⟨by simp, fun i hi hi' => ?_⟩)
    simp only [List.get_eq_getElem, List.getElem_mapIdx]
    exact contentText_renderLocation h (List.getElem_mem _)
  have hinit := contentText_line (elementText_closed "init" [("ref", t.locationId 0)] rfl
    (isName_attribute rfl))
  have hedges : ContentText .free (t.edges.map t.edgeElement)
      (String.join (t.edges.map t.renderEdge)).toList := by
    refine contentText_join ?_
    rw [List.forall₂_map_left_iff, List.forall₂_map_right_iff]
    exact List.forall₂_same.2 fun e _ => contentText_renderEdge h e
  have htemplate := elementText_opened "template" [] rfl rfl
    (hbreak.append (hname.append ((contentText_renderComment t).append
      (hlocations.append (hinit.append hedges)))))
  refine read_of_elementText ?_
  rw [render_eq]
  simpa [element, initElement, Element.tagChars, Element.attributeChars,
    h.escapeValue_locationId] using htemplate

end Template

end TimedPatterns
