import TimedPatterns.Model
import TimedPatterns.Proofs.Instrumentation.Markup
import TimedPatterns.Proofs.Text.Occurrence

/-!
# Templates in a model

The templates that are put into a model bring tags of their own, but neither a `<system>` nor a tag
of the network: no occurrence of one of these begins in their text, whatever stands behind it.
-/

namespace TimedPatterns

namespace Text

variable {xs ys : List Char}

/-- Neither `<system>` nor a tag of the network begins in the text, whatever stands behind it. -/
def Inert (xs : List Char) : Prop := Clear "<system>".toList xs ∧ Clear "<nta".toList xs

instance : Decidable (Inert xs) := inferInstanceAs (Decidable (_ ∧ _))

lemma inert_nil : Inert [] := ⟨clear_nil _, clear_nil _⟩

lemma Inert.append (hxs : Inert xs) (hys : Inert ys) : Inert (xs ++ ys) :=
  ⟨hxs.1.append hys.1, hxs.2.append hys.2⟩

lemma inert_of_not_mem (h : '<' ∉ xs) : Inert xs := ⟨clear_of_not_mem h _, clear_of_not_mem h _⟩

lemma inert_join {texts : List String} (h : ∀ text ∈ texts, Inert text.toList) :
    Inert (String.join texts).toList := by
  induction texts with
  | nil => exact inert_nil
  | cons text texts ih =>
    obtain ⟨htext, htexts⟩ := List.forall_mem_cons.1 h
    rw [String.join_cons, String.toList_append]
    exact htext.append (ih htexts)

end Text

namespace Template

open Text

variable {t : Template}

lemma Writable.inert_locationId (h : t.Writable) (position : Nat) :
    Inert (t.locationId position).toList := by
  rw [toList_locationId]
  exact .append (by decide) (.append (inert_of_not_mem h.name.not_mem)
    (.append (by decide) (inert_of_not_mem (plain_toString position).not_mem)))

lemma inert_renderLabel (kind : String) (hkind : '<' ∉ kind.toList) (label : Option String) :
    Inert (renderLabel kind label).toList := by
  cases label with
  | none => exact inert_nil
  | some label =>
    rw [renderLabel_some]
    simp only [String.toList_append]
    exact .append (.append (.append (.append (by decide) (inert_of_not_mem hkind)) (by decide))
      (inert_of_not_mem (not_mem_escape label))) (by decide)

lemma Writable.inert_renderLocation (h : t.Writable) {position : Nat} {l : Location}
    (hl : l ∈ t.locations) : Inert (t.renderLocation position l).toList := by
  rw [renderLocation_eq]
  simp only [String.toList_append]
  exact .append (.append (.append (.append (.append (.append (by decide)
    (h.inert_locationId position)) (by decide)) (inert_of_not_mem (h.locations l hl))) (by decide))
    (inert_renderLabel "invariant" (by decide) l.invariant)) (by decide)

lemma Writable.inert_renderEdge (h : t.Writable) (e : TemplateEdge) :
    Inert (t.renderEdge e).toList := by
  have hsource := h.inert_locationId e.source
  have htarget := h.inert_locationId e.target
  have hguard := inert_renderLabel "guard" (by decide) e.guard
  have hsync := inert_renderLabel "synchronisation" (by decide) (some e.sync)
  rw [renderEdge_eq]
  simp only [String.toList_append]
  exact .append (.append (.append (.append (.append (.append (by decide) hsource) (by decide))
    (.append (.append (by decide) htarget) (by decide))) hguard) hsync) (by decide)

lemma inert_renderComment (t : Template) : Inert t.renderComment.toList := by
  rw [renderComment_eq]
  cases t.comment with
  | none => exact inert_nil
  | some comment =>
    rw [Option.elim_some]
    simp only [String.toList_append]
    exact .append (.append (by decide) (inert_of_not_mem (not_mem_escape comment))) (by decide)

lemma Writable.inert_render (h : t.Writable) : Inert t.render.toList := by
  have hlocations : Inert (String.join (t.locations.mapIdx t.renderLocation)).toList := by
    refine inert_join fun text htext => ?_
    obtain ⟨i, hi, rfl⟩ := List.mem_mapIdx.1 htext
    exact h.inert_renderLocation (List.getElem_mem hi)
  have hedges : Inert (String.join (t.edges.map t.renderEdge)).toList := by
    refine inert_join fun text htext => ?_
    obtain ⟨e, -, rfl⟩ := List.mem_map.1 htext
    exact h.inert_renderEdge e
  have hname := inert_of_not_mem h.name.not_mem
  have hinit := h.inert_locationId 0
  rw [render_eq]
  simp only [String.toList_append]
  exact .append (.append (.append (.append (.append (.append (by decide)
    (.append (.append (by decide) hname) (by decide))) (inert_renderComment t)) hlocations)
    (.append (.append (by decide) hinit) (by decide))) hedges) (by decide)

/-- The markup of a template begins with its tag. -/
lemma tag_prefix_render (t : Template) : "<template>".toList <+: t.render.toList := by
  rw [render_eq]
  simp only [String.toList_append, List.append_assoc]
  exact (show "<template>".toList <+: "<template>\n".toList by decide).trans
    (List.prefix_append _ _)

end Template

namespace Model

open Text

lemma inert_templateText (p : Instrumentation) : Inert (templateText p.templates) := by
  have hline {t : Template} (ht : t ∈ p.templates) : Inert (t.render.toList ++ ['\n']) :=
    (Instrumentation.writable_of_mem_templates ht).inert_render.append (by decide)
  exact ⟨.flatMap fun t ht => (hline ht).1, .flatMap fun t ht => (hline ht).2⟩

lemma tag_prefix_templateText {templates : List Template} (h : templates ≠ []) :
    "<template>".toList <+: templateText templates := by
  obtain ⟨t, ts, rfl⟩ := List.exists_cons_of_ne_nil h
  rw [templateText, List.flatMap_cons, List.append_assoc]
  exact t.tag_prefix_render.trans (List.prefix_append _ _)

/-- The names of the templates are words. -/
lemma isWord_of_mem_name {p : Instrumentation} {t : Template} (ht : t ∈ p.templates) :
    ∀ c ∈ t.name.toList, isWord c = true := by
  rcases Instrumentation.mem_templates.1 ht with ⟨w, -, rfl⟩ | ⟨w, -, rfl⟩ | ⟨k, pattern, -, rfl⟩
  · exact List.all_eq_true.1 (show Template.inputName.toList.all isWord = true by decide)
  · exact List.all_eq_true.1 (show Template.observerName.toList.all isWord = true by decide)
  · show ∀ c ∈ ("PatternMonitor" ++ toString k).toList, isWord c = true
    rw [String.toList_append, List.forall_mem_append, toList_toString_nat]
    refine ⟨List.all_eq_true.1 (by decide), fun c hc => isWord_of_isAlphanum ?_⟩
    simp [Char.isAlphanum, isDigit_of_mem_toDigits hc]

/-- No sign of markup and no semicolon is in the names that are listed. -/
lemma not_mem_nameText {c : Char} (hword : isWord c = false) (hsep : c ∉ ", ".toList)
    (p : Instrumentation) : c ∉ nameText p.templates := by
  have hnames : ∀ x ∈ (", ".intercalate (p.templates.map (·.name))).toList, x ≠ c := by
    rw [String.toList_intercalate]
    refine forall_mem_intercalate (fun x hx heq => hsep (heq ▸ hx)) ?_
    rw [List.map_map, List.forall_mem_map]
    rintro t ht x hx rfl
    exact absurd ((isWord_of_mem_name ht x hx).symm.trans hword) nofun
  rw [nameText, List.mem_append, not_or]
  exact ⟨hsep, fun hmem => hnames c hmem rfl⟩

end Model

end TimedPatterns
