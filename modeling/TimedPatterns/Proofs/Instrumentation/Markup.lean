import TimedPatterns.Proofs.Instrumentation.Names
import TimedPatterns.Proofs.Template.Markup
import TimedPatterns.Proofs.Template.Observer

/-!
# The markup of an instrumentation

Every template that an instrumentation adds is read back as an element, whatever its labels are. The
locations of all the templates have different identifiers, and each reference in a template is to
the identifier of the location that is meant.
-/

namespace TimedPatterns

/-- The values of an attribute of the children with the given name. -/
def Element.values (e : Element) (name key : String) : List String :=
  (e.childrenNamed name).filterMap (·.attribute? key)

namespace Template

open Text (Plain)

variable {t : Template} {stem last name : String} {length : Nat}

/-! ### Names -/

lemma plain_append_toString (stem : String) (hstem : Plain stem.toList) (n : Nat) :
    Plain (stem ++ toString n).toList := by
  rw [String.toList_append]
  exact hstem.append (plain_toString n)

lemma plain_of_mem_chainNames (hstem : Plain stem.toList) (hlast : Plain last.toList)
    (h : name ∈ chainNames stem last length) : Plain name.toList := by
  have hstart : Plain "start".toList := by decide
  exact forall_mem_chainNames (P := fun name => Plain name.toList) hlast hstart
    (plain_append_toString stem hstem) name h

lemma Writable.of_names (hname : Plain t.name.toList)
    (hlocations : ∀ name ∈ t.locationNames, Plain name.toList) : t.Writable :=
  ⟨hname, fun _ hl => (hlocations _ (List.mem_map_of_mem hl)).not_mem⟩

lemma writable_input (w : TimedWord) (clock : String) : (input w clock).Writable := by
  refine .of_names (show Plain inputName.toList by decide) fun name hmem => ?_
  rw [locationNames_input] at hmem
  exact plain_of_mem_chainNames (by decide) (by decide) hmem

lemma writable_observer (w : TimedWord) (alphabet : Option (List String)) (clock : String) :
    (observer w alphabet clock).Writable := by
  refine .of_names (show Plain observerName.toList by decide) fun name hmem => ?_
  rw [locationNames_observer, List.mem_append] at hmem
  rcases hmem with hmem | hmem
  · exact plain_of_mem_chainNames (by decide) (by decide) hmem
  · split at hmem
    · obtain rfl := List.mem_singleton.1 hmem
      decide
    · cases hmem

lemma writable_monitor (k : Nat) (pattern alphabet : List String) :
    (monitor k pattern alphabet).Writable := by
  refine .of_names (plain_append_toString "PatternMonitor" (by decide) k)
    fun name hmem => ?_
  rw [locationNames_monitor, List.mem_append, List.mem_singleton] at hmem
  rcases hmem with hmem | rfl
  · exact plain_of_mem_chainNames (by decide) (by decide) hmem
  · decide

/-! ### Identifiers -/

def locationIds (t : Template) : List String := (List.range t.locations.length).map t.locationId

/-- An identifier tells the name of its template and the position of its location. -/
lemma locationId_inj {t' : Template} {i j : Nat} (h : t.locationId i = t'.locationId j) :
    t.name = t'.name ∧ i = j := by
  have hdigits (n : Nat) : ∀ c ∈ (toString n).toList, (c == '_') = false := by
    intro c hc
    rw [Text.toList_toString_nat] at hc
    rw [beq_eq_false_iff_ne]
    rintro rfl
    exact absurd (Text.isDigit_of_mem_toDigits hc) (by decide)
  have hpieces (t : Template) (n : Nat) : Text.pieces (· == '_') (t.locationId n).toList =
      Text.pieces (· == '_') ("pf_".toList ++ t.name.toList) ++ [(toString n).toList] := by
    rw [toList_locationId, ← List.append_assoc]
    exact Text.pieces_append_last _ rfl (hdigits n)
  have hlast := congrArg List.getLast? (hpieces t i)
  rw [h, hpieces, List.getLast?_concat, List.getLast?_concat, Option.some.injEq,
    String.toList_inj] at hlast
  obtain rfl : j = i := Text.toString_nat_injective hlast
  have hlists := congrArg String.toList h
  rw [toList_locationId, toList_locationId, List.append_cancel_left_eq,
    List.append_cancel_right_eq, String.toList_inj] at hlists
  exact ⟨hlists, rfl⟩

lemma nodup_locationIds (t : Template) : t.locationIds.Nodup :=
  List.nodup_range.map fun _ _ h => (locationId_inj h).2

/-! ### References -/

/-- Every edge leads from a location of the template to another one. -/
structure Closed (t : Template) : Prop where
  init : 0 < t.locations.length
  edges : ∀ e ∈ t.edges, e.source < t.locations.length ∧ e.target < t.locations.length

lemma closed_input (w : TimedWord) (clock : String) : (input w clock).Closed where
  init := by simp [input]
  edges e he := by
    have hlength : (input w clock).locations.length = w.length + 1 := by simp [input]
    obtain ⟨i, s, hs, rfl⟩ := mem_chainEdges.1 he
    have hi : i < w.length := (List.getElem?_eq_some_iff.1 hs).1
    rw [hlength]
    exact ⟨Nat.lt_succ_of_lt hi, Nat.succ_lt_succ hi⟩

lemma closed_observer (w : TimedWord) (alphabet : Option (List String)) (clock : String) :
    (observer w alphabet clock).Closed where
  init := by simp [observer]
  edges e he := by
    have hlength : (observer w alphabet clock).locations.length =
        w.length + 1 + if alphabet.isSome then 1 else 0 := by
      simp only [observer, List.length_append, List.length_map, List.length_range]
      split <;> rfl
    obtain ⟨i, s, hs, hedge⟩ := mem_edges_observer.1 he
    have hi : i < w.length := (List.getElem?_eq_some_iff.1 hs).1
    rw [hlength]
    rcases hedge with rfl | ⟨label, hlabel, -, rfl⟩
    · exact ⟨by dsimp only; omega, by dsimp only; omega⟩
    · -- an alphabet with a label in it has been given
      have halphabet : alphabet.isSome = true := by
        cases alphabet with
        | none => cases hlabel
        | some labels => rfl
      rw [if_pos halphabet]
      exact ⟨by dsimp only; omega, by dsimp only; omega⟩

lemma closed_monitor (k : Nat) (pattern alphabet : List String) :
    (monitor k pattern alphabet).Closed where
  init := by simp [monitor]
  edges e he := by
    have hlength : (monitor k pattern alphabet).locations.length = pattern.length + 2 := by
      simp [monitor]
    rw [hlength]
    rcases mem_edges_monitor.1 he with ⟨i, label, hlabel, rfl⟩ | ⟨i, hi, label, -, -, rfl⟩
    · have hi : i < pattern.length := (List.getElem?_eq_some_iff.1 hlabel).1
      exact ⟨by dsimp only; omega, by dsimp only; omega⟩
    · exact ⟨by dsimp only; omega, by dsimp only; omega⟩

section Children

variable (t : Template)

lemma filter_commentElement (name : String) (h : name ≠ "declaration") :
    t.commentElement.filter (·.name = name) = [] := by
  unfold commentElement
  cases t.comment with
  | none => rfl
  | some comment => exact List.filter_cons_of_neg (by simpa using h.symm)

lemma childrenNamed_location :
    t.element.childrenNamed "location" = t.locations.mapIdx t.locationElement := by
  have hlocations : (t.locations.mapIdx t.locationElement).filter (·.name = "location") =
      t.locations.mapIdx t.locationElement := by
    refine List.filter_eq_self.2 fun e he => ?_
    obtain ⟨i, hi, rfl⟩ := List.mem_mapIdx.1 he
    rfl
  have hedges : (t.edges.map t.edgeElement).filter (·.name = "location") = [] := by
    simp [edgeElement]
  simp [Element.childrenNamed, element, initElement, hlocations, hedges,
    filter_commentElement]

lemma filter_locations (name : String) (h : name ≠ "location") :
    (t.locations.mapIdx t.locationElement).filter (·.name = name) = [] := by
  refine List.filter_eq_nil_iff.2 fun e he => ?_
  obtain ⟨i, hi, rfl⟩ := List.mem_mapIdx.1 he
  rw [decide_eq_true_eq]
  exact h.symm

lemma childrenNamed_init : t.element.childrenNamed "init" = [t.initElement] := by
  have hedges : (t.edges.map t.edgeElement).filter (·.name = "init") = [] := by
    simp [edgeElement]
  simp [Element.childrenNamed, element, initElement, hedges, filter_commentElement,
    filter_locations]

lemma childrenNamed_transition :
    t.element.childrenNamed "transition" = t.edges.map t.edgeElement := by
  have hedges : (t.edges.map t.edgeElement).filter (·.name = "transition") =
      t.edges.map t.edgeElement := by
    simp [edgeElement]
  simp [Element.childrenNamed, element, initElement, hedges, filter_commentElement,
    filter_locations]

end Children

/-- The references of an element to the locations of a template, by their identifiers. -/
structure Refers (t : Template) (root : Element) : Prop where
  locations : (root.values "location" "id").length = t.locations.length
  init : (root.values "init" "ref").map some = [(root.values "location" "id")[0]?]
  edges : List.Forall₂ (fun edge e =>
      (e.values "source" "ref").map some = [(root.values "location" "id")[edge.source]?] ∧
        (e.values "target" "ref").map some = [(root.values "location" "id")[edge.target]?])
    t.edges (root.childrenNamed "transition")

lemma values_location (t : Template) : t.element.values "location" "id" = t.locationIds := by
  have hvalue (position : Nat) (l : Location) :
      (t.locationElement position l).attribute? "id" = some (t.locationId position) := rfl
  rw [Element.values, childrenNamed_location, locationIds, List.mapIdx_eq_zipIdx_map,
    List.filterMap_map]
  simp only [Function.comp_def, hvalue]
  rw [List.filterMap_eq_map', List.range_eq_range', ← List.zipIdx_map_snd 0 t.locations,
    List.map_map]
  rfl

lemma values_edge (t : Template) (e : TemplateEdge) :
    (t.edgeElement e).values "source" "ref" = [t.locationId e.source] ∧
      (t.edgeElement e).values "target" "ref" = [t.locationId e.target] := by
  cases hguard : e.guard <;>
    simp [Element.values, Element.childrenNamed, Element.attribute?, edgeElement, labelElement,
      hguard]

lemma getElem?_locationIds {position : Nat} (h : position < t.locations.length) :
    t.locationIds[position]? = some (t.locationId position) := by
  rw [locationIds, List.getElem?_map, List.getElem?_range h]
  rfl

lemma Closed.refers (h : t.Closed) : t.Refers t.element where
  locations := by rw [values_location, locationIds, List.length_map, List.length_range]
  init := by
    rw [values_location, getElem?_locationIds h.init, Element.values, childrenNamed_init]
    rfl
  edges := by
    rw [values_location, childrenNamed_transition, List.forall₂_map_right_iff]
    refine List.forall₂_same.2 fun e he => ?_
    obtain ⟨hsource, htarget⟩ := h.edges e he
    rw [getElem?_locationIds hsource, getElem?_locationIds htarget, (t.values_edge e).1,
      (t.values_edge e).2]
    exact ⟨rfl, rfl⟩

end Template

namespace Instrumentation

variable {p : Instrumentation} {t : Template}

lemma writable_of_mem_templates (h : t ∈ p.templates) : t.Writable := by
  rcases mem_templates.1 h with ⟨w, -, rfl⟩ | ⟨w, -, rfl⟩ | ⟨k, pattern, -, rfl⟩
  · exact Template.writable_input w p.clock
  · exact Template.writable_observer w p.observedAlphabet p.clock
  · exact Template.writable_monitor k pattern p.exclusionAlphabet

lemma closed_of_mem_templates (h : t ∈ p.templates) : t.Closed := by
  rcases mem_templates.1 h with ⟨w, -, rfl⟩ | ⟨w, -, rfl⟩ | ⟨k, pattern, -, rfl⟩
  · exact Template.closed_input w p.clock
  · exact Template.closed_observer w p.observedAlphabet p.clock
  · exact Template.closed_monitor k pattern p.exclusionAlphabet

/-- No two locations have the same identifier, within a template or in two of them. -/
lemma nodup_locationIds (p : Instrumentation) :
    (p.templates.flatMap (·.locationIds)).Nodup := by
  refine List.nodup_flatMap.2 ⟨fun t _ => t.nodup_locationIds, ?_⟩
  refine (List.pairwise_map.1 p.nodup_names).imp fun hne => ?_
  intro id hid hid'
  obtain ⟨i, -, rfl⟩ := List.mem_map.1 hid
  obtain ⟨j, -, hj⟩ := List.mem_map.1 hid'
  exact hne (Template.locationId_inj hj).1.symm

/-- The markup of every template that is added is read as an element with the name of the template,
its comment, its locations, the place where it starts and its edges, in this order. The references
in it are to the identifiers of the locations that are meant, and the locations of all the templates
have different identifiers. -/
theorem templates_read (p : Instrumentation) :
    (∀ t ∈ p.templates, Markup.read t.render = .ok t.element ∧ t.Refers t.element) ∧
      (p.templates.flatMap fun t => t.element.values "location" "id").Nodup := by
  constructor
  · intro t ht
    exact ⟨Template.read_render (writable_of_mem_templates ht),
      (closed_of_mem_templates ht).refers⟩
  · simp only [Template.values_location]
    exact p.nodup_locationIds

end Instrumentation

end TimedPatterns
