import TimedPatterns.Proofs.Markup.Writing
import TimedPatterns.Proofs.Table
import TimedPatterns.Proofs.Text.Numeral
import TimedPatterns.Proofs.Witness.Chain
import TimedPatterns.Witness.Document

/-!
# Documents of chains

The document of a chain defines its clocks, processes, locations and edges first, then the
constraints of each state, and then lists the nodes and the transitions. The ids can be any, as
long as those of one kind are distinct, and those of edges are words.

What the document defines is found again under its ids, so that each node has the constraints of
its state, and each transition the edges of its step.
-/

namespace TimedPatterns

open Text

/-! ### Documents -/

namespace Chain

variable (c : Chain)

def clocks : List String := (c.zones.flatten.flatMap fun d => [d.left, d.right]).dedup

def edges : List WitnessEdge := (c.steps.flatMap (·.1)).dedup

def processes : List String := (c.edges.map (·.process)).dedup

/-- The ends of the edges, each with its process. -/
def locations : List (String × String) :=
  (c.edges.flatMap fun e => [(e.process, e.source), (e.process, e.target)]).dedup

end Chain

/-- How a chain is written as a document: the ids, whether edges name their process, and whether
an edge that does not synchronise has an empty synchronisation. -/
structure Rendering (c : Chain) where
  clock : String → String
  process : String → String
  location : String × String → String
  edge : WitnessEdge → String
  zone : Nat → String
  node : Nat → String
  namesProcess : Bool
  emptySync : Bool
  nodup_clock : (c.clocks.map clock).Nodup
  nodup_process : (c.processes.map process).Nodup
  nodup_location : (c.locations.map location).Nodup
  nodup_edge : (c.edges.map edge).Nodup
  nodup_zone : ((List.range c.zones.length).map zone).Nodup
  nodup_node : ((List.range c.zones.length).map node).Nodup
  edge_ne_nil : ∀ e ∈ c.edges, (edge e).toList ≠ []
  isBlank_edge : ∀ e ∈ c.edges, ∀ x ∈ (edge e).toList, isBlank x = false

namespace Rendering

variable {c : Chain} (r : Rendering c)

def clockElement (name : String) : Element :=
  ⟨"clock", [("id", r.clock name), ("name", name)], []⟩

def processElement (name : String) : Element :=
  ⟨"process", [("id", r.process name), ("name", name)], []⟩

/-- The definition of a location, which is given with its process. -/
def locationElement (l : String × String) : Element :=
  ⟨"location", [("id", r.location l), ("process", r.process l.1), ("name", l.2)], []⟩

def edgeElement (e : WitnessEdge) : Element :=
  let process := if r.namesProcess then [("process", r.process e.process)] else []
  let sync := match e.sync with
    | some sync => [("sync", sync)]
    | none => if r.emptySync then [("sync", "")] else []
  ⟨"edge", ("id", r.edge e) :: process ++ ("from", r.location (e.process, e.source)) ::
    ("to", r.location (e.process, e.target)) :: sync, []⟩

def boundElement (d : Difference) : Element :=
  ⟨"clockbound", [("clock1", r.clock d.left), ("clock2", r.clock d.right),
    ("bound", toString d.bound), ("comp", if d.strict then "<" else "<=")], []⟩

/-- The constraints of a state, which is given with its position. -/
def zoneElement (zone : List Difference × Nat) : Element :=
  ⟨"dbm_instance", [("id", r.zone zone.2)], zone.1.map r.boundElement⟩

/-- The node of a state, which is given with its position. -/
def nodeElement (zone : List Difference × Nat) : Element :=
  ⟨"node", [("id", r.node zone.2), ("dbm_instance", r.zone zone.2)], []⟩

/-- The transition of a step, which is given with its position. -/
def transitionElement (step : (List WitnessEdge × List Difference) × Nat) : Element :=
  ⟨"transition", [("from", r.node step.2), ("to", r.node (step.2 + 1)),
    ("edges", String.ofList ([' '].intercalate (step.1.1.map fun e => (r.edge e).toList)))], []⟩

def element : Element :=
  ⟨"trace", [], c.clocks.map r.clockElement ++ (c.processes.map r.processElement ++
    (c.locations.map r.locationElement ++ (c.edges.map r.edgeElement ++
      (c.zones.zipIdx.map r.zoneElement ++ (c.zones.zipIdx.map r.nodeElement ++
        c.steps.zipIdx.map r.transitionElement)))))⟩

def document : String := String.ofList r.element.chars

/-! ### Numbers as ids -/

lemma nodup_map_append_toString {α : Type} [BEq α] [LawfulBEq α] {xs : List α} (h : xs.Nodup)
    (letter : String) : (xs.map fun x => letter ++ toString (xs.idxOf x)).Nodup := by
  refine h.map_on fun x hx y _ heq => (List.idxOf_inj hx).1 ?_
  exact toString_nat_injective ((String.append_right_inj letter).1 heq)

/-- The things of each kind are numbered, with a letter before the number. -/
def numbered (c : Chain) : Rendering c where
  clock name := "c" ++ toString (c.clocks.idxOf name)
  process name := "p" ++ toString (c.processes.idxOf name)
  location l := "l" ++ toString (c.locations.idxOf l)
  edge e := "e" ++ toString (c.edges.idxOf e)
  zone i := "d" ++ toString ((List.range c.zones.length).idxOf i)
  node i := "s" ++ toString ((List.range c.zones.length).idxOf i)
  namesProcess := false
  emptySync := true
  nodup_clock := nodup_map_append_toString (List.nodup_dedup _) _
  nodup_process := nodup_map_append_toString (List.nodup_dedup _) _
  nodup_location := nodup_map_append_toString (List.nodup_dedup _) _
  nodup_edge := nodup_map_append_toString (List.nodup_dedup _) _
  nodup_zone := nodup_map_append_toString List.nodup_range _
  nodup_node := nodup_map_append_toString List.nodup_range _
  edge_ne_nil e _ := by
    rw [String.toList_append]
    exact List.append_ne_nil_of_left_ne_nil (by decide) _
  isBlank_edge e _ := by
    rw [String.toList_append, List.forall_mem_append, toList_toString_nat]
    refine ⟨by simp [isBlank], fun x hx => isBlank_of_isWord (isWord_of_isAlphanum ?_)⟩
    simp [Char.isAlphanum, isDigit_of_mem_toDigits hx]

/-! ### Definitions -/

/-- What the document of a chain defines. -/
def definitions : Document.Definitions where
  clocks := (c.clocks.map fun name => (r.clock name, Document.clockOfName name)).reverse
  processes := (c.processes.map fun name => (r.process name, name)).reverse
  locations := (c.locations.map fun l => (r.location l, r.locationElement l)).reverse
  edges := (c.edges.map fun e => (r.edge e, r.edgeElement e)).reverse
  instances := (c.zones.zipIdx.map fun zone => (r.zone zone.2, r.zoneElement zone)).reverse

end Rendering

namespace Document

variable {α β : Type} {xs : List α} {element : α → Element} {id : α → String}

lemma required_eq_ok {e : Element} {name value : String} (h : e.attribute? name = some value) :
    e.required name = .ok value := by
  rw [Element.required, h]

lemma refer_eq_ok {kind : String} {table : List (String × β)} {id : String} {value : β}
    (h : table.lookup id = some value) : refer kind table id = .ok value := by
  rw [refer, h]

lemma define_eq_ok {table : List (String × Element)} {e : Element} {id : String}
    (hid : e.attribute? "id" = some id) (hfree : table.lookup id = none) :
    define table e = .ok ((id, e) :: table) := by
  rw [define, required_eq_ok hid]
  simp only [bind, Except.bind, hfree, Option.isSome_none, Bool.false_eq_true, if_false]

/-- Clocks and processes are defined one after the other. -/
lemma foldlM_entry {entry : α → String × β} (put : List (String × β) → Definitions)
    (hadd : ∀ table x, (put table).add (element x) = .ok (put (entry x :: table))) :
    (xs.map element).foldlM Definitions.add (put []) = .ok (put (xs.map entry).reverse) := by
  rw [List.foldlM_map]
  refine foldlM_eq_ok (fun before => put (before.map entry).reverse) fun before x after _ => ?_
  rw [hadd, List.map_append, List.reverse_append]
  rfl

/-- The definitions of another kind can be added one after the other if their ids are distinct. -/
lemma foldlM_define (put : List (String × Element) → Definitions)
    (hadd : ∀ table x, (put table).add (element x) = (define table (element x)).map put)
    (hnodup : (xs.map id).Nodup) (hid : ∀ x, (element x).attribute? "id" = some (id x)) :
    (xs.map element).foldlM Definitions.add (put []) =
      .ok (put (xs.map fun x => (id x, element x)).reverse) := by
  rw [List.foldlM_map]
  refine foldlM_eq_ok (fun before => put (before.map fun x => (id x, element x)).reverse)
    fun before x after hxs => ?_
  -- an id that comes up later is not in the table yet
  have hfree : id x ∉ before.map id := by
    rw [hxs, List.map_append, List.map_cons, List.nodup_middle, List.nodup_cons] at hnodup
    exact fun hmem => hnodup.1 (List.mem_append_left _ hmem)
  rw [hadd, define_eq_ok (hid x) (lookup_reverse_map_eq_none hfree), List.map_append,
    List.reverse_append]
  rfl

/-- Nodes and transitions define nothing. -/
lemma foldlM_other {d : Definitions} (hadd : ∀ x, d.add (element x) = .ok d) :
    (xs.map element).foldlM Definitions.add d = .ok d := by
  rw [List.foldlM_map]
  exact foldlM_eq_ok (fun _ => d) fun _ x _ _ => hadd x

end Document

namespace Rendering

variable {c : Chain} (r : Rendering c)

open Document

lemma definitions_element : Document.definitions r.element = .ok r.definitions := by
  -- the tables are filled kind after kind, in the order the kinds are written in
  have hclocks : (c.clocks.map r.clockElement).foldlM Definitions.add {} =
      .ok ⟨r.definitions.clocks, [], [], [], []⟩ :=
    foldlM_entry (fun table => ⟨table, [], [], [], []⟩) fun _ _ => rfl
  have hprocesses : (c.processes.map r.processElement).foldlM Definitions.add
      ⟨r.definitions.clocks, [], [], [], []⟩ =
        .ok ⟨r.definitions.clocks, r.definitions.processes, [], [], []⟩ :=
    foldlM_entry (fun table => ⟨_, table, [], [], []⟩) fun _ _ => rfl
  have hlocations : (c.locations.map r.locationElement).foldlM Definitions.add
      ⟨r.definitions.clocks, r.definitions.processes, [], [], []⟩ =
        .ok ⟨r.definitions.clocks, r.definitions.processes, r.definitions.locations, [], []⟩ :=
    foldlM_define (fun table => ⟨_, _, table, [], []⟩) (fun _ _ => rfl) r.nodup_location
      fun _ => rfl
  have hedges : (c.edges.map r.edgeElement).foldlM Definitions.add
      ⟨r.definitions.clocks, r.definitions.processes, r.definitions.locations, [], []⟩ =
        .ok { r.definitions with instances := [] } :=
    foldlM_define (fun table => ⟨_, _, _, table, []⟩) (fun _ _ => rfl) r.nodup_edge fun _ => rfl
  have hzones : (c.zones.zipIdx.map r.zoneElement).foldlM Definitions.add
      { r.definitions with instances := [] } = .ok r.definitions :=
    foldlM_define (fun table => ⟨_, _, _, _, table⟩) (fun _ _ => rfl)
      (nodup_zipIdx r.nodup_zone) fun _ => rfl
  have hnodes : (c.zones.zipIdx.map r.nodeElement).foldlM Definitions.add
      r.definitions = .ok r.definitions := foldlM_other fun _ => rfl
  have htransitions : (c.steps.zipIdx.map r.transitionElement).foldlM Definitions.add
      r.definitions = .ok r.definitions := foldlM_other fun _ => rfl
  simp only [Document.definitions, element, List.foldlM_append, hclocks, hprocesses, hlocations,
    hedges, hzones, hnodes, htransitions, bind, Except.bind]

/-! ### States -/

lemma clockOfName_eq {name : String} (h : IsClockName name) : clockOfName name = name := by
  rcases h with rfl | ⟨-, -, hsuffix⟩
  · rfl
  · rw [clockOfName]
    split_ifs with hzero
    · rcases hzero with rfl | hzero
      · rfl
      · exact absurd (List.isSuffixOf_iff_suffix.1 hzero) hsuffix
    · rfl

lemma refer_clock {name : String} (hname : IsClockName name) (h : name ∈ c.clocks) :
    refer "clock" r.definitions.clocks (r.clock name) = .ok name := by
  refine refer_eq_ok ?_
  rw [definitions, lookup_reverse_map r.nodup_clock h, clockOfName_eq hname]

lemma bound?_toString {k : Int} (hmin : minSigned ≤ k) (hmax : k ≤ maxSigned) :
    Document.bound? (toString k) = .ok (some k) := by
  have htrimmed : Trimmed (toString k).toList :=
    trimmed_of_forall fun x => isBlank_of_mem_toString_int
  have htrim : trim (toString k) = toString k := by
    rw [trim, htrimmed.trimChars_eq, String.ofList_toList]
  -- each text of an infinite bound has a letter
  have hfinite (c : Char) (hminus : c ≠ '-') (hdigit : c.isDigit = false) :
      c ∉ (toString k).toList := by
    intro hc
    rcases mem_toString_int hc with rfl | hc
    · exact hminus rfl
    · rw [hc] at hdigit
      cases hdigit
  have hinf : toString k ≠ "inf" := fun heq =>
    hfinite 'i' (by decide) rfl (by rw [heq]; decide)
  have hINF : toString k ≠ "INF" := fun heq =>
    hfinite 'I' (by decide) rfl (by rw [heq]; decide)
  have hinfinity : toString k ≠ "infinity" := fun heq =>
    hfinite 'i' (by decide) rfl (by rw [heq]; decide)
  simp only [Document.bound?, htrim, hinf, hINF, hinfinity, or_self, if_false,
    readSigned_toString hmin hmax]

lemma difference?_boundElement {d : Difference} (hd : d.Written) (hleft : d.left ∈ c.clocks)
    (hright : d.right ∈ c.clocks) :
    Document.difference? r.definitions (r.boundElement d) = .ok (some d) := by
  have hstrict : isStrict ((r.boundElement d).attribute? "comp") = .ok d.strict := by
    unfold boundElement
    cases d.strict <;> rfl
  have hbound : (r.boundElement d).required "bound" = .ok (toString d.bound) := rfl
  have hclock1 : (r.boundElement d).required "clock1" = .ok (r.clock d.left) := rfl
  have hclock2 : (r.boundElement d).required "clock2" = .ok (r.clock d.right) := rfl
  rw [Document.difference?, hbound, hclock1, hclock2]
  simp only [bind, Except.bind, bound?_toString hd.min_le hd.le_max, hstrict,
    refer_clock r hd.left hleft, refer_clock r hd.right hright]
  rfl

lemma differences_boundElement {zone : List Difference} (hzone : ∀ d ∈ zone, d.Written)
    (hclocks : ∀ d ∈ zone, d.left ∈ c.clocks ∧ d.right ∈ c.clocks) :
    Document.differences r.definitions (zone.map r.boundElement) = .ok zone := by
  induction zone with
  | nil => rfl
  | cons d zone ih =>
    obtain ⟨hd, hzone⟩ := List.forall_mem_cons.1 hzone
    obtain ⟨⟨hleft, hright⟩, hclocks⟩ := List.forall_mem_cons.1 hclocks
    rw [List.map_cons, Document.differences, difference?_boundElement r hd hleft hright,
      ih hzone hclocks]
    rfl

lemma state_nodeElement (h : c.Written) {zone : List Difference × Nat}
    (hzone : zone ∈ c.zones.zipIdx) :
    state r.definitions (r.nodeElement zone) = .ok ⟨zone.1⟩ := by
  have hmem : zone.1 ∈ c.zones := List.fst_mem_of_mem_zipIdx hzone
  have hclocks : ∀ d ∈ zone.1, d.left ∈ c.clocks ∧ d.right ∈ c.clocks := by
    intro d hd
    have hflatten : d ∈ c.zones.flatten := List.mem_flatten.2 ⟨_, hmem, hd⟩
    simp only [Chain.clocks, List.mem_dedup, List.mem_flatMap]
    exact ⟨⟨d, hflatten, List.mem_cons_self⟩, d, hflatten, List.mem_of_mem_getLast? rfl⟩
  have hrefer : refer "dbm_instance" r.definitions.instances (r.zone zone.2) =
      .ok (r.zoneElement zone) := by
    refine refer_eq_ok ?_
    rw [definitions, lookup_reverse_map (nodup_zipIdx r.nodup_zone) hzone]
  have hbounds : (r.zoneElement zone).childrenNamed "clockbound" = zone.1.map r.boundElement := by
    rw [Element.childrenNamed, zoneElement, List.filter_eq_self, List.forall_mem_map]
    exact fun _ _ => rfl
  have hattribute : (r.nodeElement zone).attribute? "dbm_instance" = some (r.zone zone.2) := rfl
  simp only [state, hattribute, hrefer, bind, Except.bind, hbounds,
    differences_boundElement r (h.zones _ hmem) hclocks]
  rfl

/-- The states of nodes are read in order if their ids are distinct. -/
lemma states_eq_ok {α : Type} {d : Definitions} {element : α → Element} {id : α → String}
    {found : α → SymbolicState} (hid : ∀ x, (element x).attribute? "id" = some (id x)) {xs : List α}
    (hstate : ∀ x ∈ xs, state d (element x) = .ok (found x)) {known : List String}
    (hnodup : (xs.map id).Nodup) (hknown : ∀ x ∈ xs, id x ∉ known) :
    states d known (xs.map element) = .ok (xs.map fun x => (id x, found x)) := by
  induction xs generalizing known with
  | nil => rfl
  | cons x xs ih =>
    obtain ⟨hx, hxs⟩ := List.forall_mem_cons.1 hstate
    obtain ⟨hfree, hknown⟩ := List.forall_mem_cons.1 hknown
    obtain ⟨hmem, hnodup⟩ := List.nodup_cons.1 hnodup
    have hrest : states d (id x :: known) (xs.map element) =
        .ok (xs.map fun x => (id x, found x)) := by
      refine ih hxs hnodup fun y hy => ?_
      rw [List.mem_cons, not_or]
      refine ⟨fun heq => hmem ?_, hknown y hy⟩
      rw [← heq]
      exact List.mem_map_of_mem hy
    rw [List.map_cons, states, required_eq_ok (hid x)]
    simp only [bind, Except.bind, hfree, if_false, hx, hrest]
    rfl

/-! ### Moves -/

lemma processName_process {name : String} (h : name ∈ c.processes) :
    processName r.definitions (r.process name) = name := by
  rw [processName, definitions, lookup_reverse_map r.nodup_process h]
  rfl

lemma locationName_location {l : String × String} (hl : l ∈ c.locations)
    (hprocess : l.1 ∈ c.processes) :
    locationName r.definitions (r.location l) = .ok (l.2, some l.1) := by
  have hrefer : refer "location" r.definitions.locations (r.location l) =
      .ok (r.locationElement l) := by
    refine refer_eq_ok ?_
    rw [definitions, lookup_reverse_map r.nodup_location hl]
  have hattributes : (r.locationElement l).attribute? "name" = some l.2 ∧
    (r.locationElement l).attribute? "process" = some (r.process l.1) := ⟨rfl, rfl⟩
  rw [locationName, hrefer]
  simp only [bind, Except.bind, hattributes, Option.map_some, processName_process r hprocess]
  rfl

lemma attribute?_edgeElement (e : WitnessEdge) :
    (r.edgeElement e).attribute? "from" = some (r.location (e.process, e.source)) ∧
      (r.edgeElement e).attribute? "to" = some (r.location (e.process, e.target)) ∧
      (r.edgeElement e).attribute? "process" =
        (if r.namesProcess then some (r.process e.process) else none) ∧
      (r.edgeElement e).attribute? "sync" =
        (e.sync <|> if r.emptySync then some "" else none) := by
  unfold edgeElement
  cases r.namesProcess <;> cases r.emptySync <;> cases e.sync <;> exact ⟨rfl, rfl, rfl, rfl⟩

/-- The label of an edge is read back; an empty one is none. -/
lemma label_of_written {e : WitnessEdge} (h : e.Written) :
    ((e.sync <|> if r.emptySync then some "" else none).map trim).filter (· ≠ "") = e.sync := by
  cases hsync : e.sync with
  | none => cases r.emptySync <;> rfl
  | some sync =>
    have hsync' := h.sync sync hsync
    have htrim : trim sync = sync := by
      rw [trim, (trimmed_of_forall hsync'.isBlank).trimChars_eq, String.ofList_toList]
    have hne : sync ≠ "" := by
      rintro rfl
      obtain ⟨_, _, _, hnil, -⟩ := hsync'
      cases hnil
    show Option.filter _ (some (trim sync)) = _
    rw [htrim, Option.filter_some, if_pos (decide_eq_true hne)]

/-- The edge that an id stands for. -/
lemma edge_edge {e : WitnessEdge} (h : e.Written) (he : e ∈ c.edges) :
    Document.edge r.definitions (r.edge e) = .ok e := by
  have hprocess : e.process ∈ c.processes := List.mem_dedup.2 (List.mem_map_of_mem he)
  have hsource : (e.process, e.source) ∈ c.locations :=
    List.mem_dedup.2 (List.mem_flatMap.2 ⟨e, he, List.mem_cons_self⟩)
  have htarget : (e.process, e.target) ∈ c.locations :=
    List.mem_dedup.2 (List.mem_flatMap.2 ⟨e, he, List.mem_of_mem_getLast? rfl⟩)
  have hrefer : refer "edge" r.definitions.edges (r.edge e) = .ok (r.edgeElement e) := by
    refine refer_eq_ok ?_
    rw [definitions, lookup_reverse_map r.nodup_edge he]
  obtain ⟨hfrom, hto, hown, hsync⟩ := attribute?_edgeElement r e
  rw [Document.edge, hrefer]
  simp only [bind, Except.bind, required_eq_ok hfrom, required_eq_ok hto, hown, hsync,
    label_of_written r h, locationName_location r hsource hprocess,
    locationName_location r htarget hprocess]
  cases r.namesProcess
  · rfl
  · show Except.ok (WitnessEdge.mk (processName _ _) _ _ _) = _
    rw [processName_process r hprocess]

lemma words_edges {edges : List WitnessEdge} (h : ∀ e ∈ edges, e ∈ c.edges) :
    words (String.ofList ([' '].intercalate (edges.map fun e => (r.edge e).toList))) =
      edges.map r.edge := by
  have hne : ∀ part ∈ edges.map (fun e => (r.edge e).toList), part ≠ [] := by
    rw [List.forall_mem_map]
    exact fun e he => r.edge_ne_nil e (h e he)
  have hblank : ∀ part ∈ edges.map (fun e => (r.edge e).toList), ∀ x ∈ part,
      isBlank x = false := by
    rw [List.forall_mem_map]
    exact fun e he => r.isBlank_edge e (h e he)
  rw [words, String.toList_ofList, wordsChars_intercalate hne hblank, List.map_map]
  exact List.map_congr_left fun e _ => String.ofList_toList

lemma move_transitionElement (h : c.Written)
    {step : (List WitnessEdge × List Difference) × Nat} (hstep : step ∈ c.steps.zipIdx) :
    move r.definitions (c.zones.zipIdx.map fun zone => r.node zone.2) (r.transitionElement step) =
      .ok ⟨step.1.1, step.2 + 1⟩ := by
  have hmem : step.1 ∈ c.steps := List.fst_mem_of_mem_zipIdx hstep
  have hedges : ∀ e ∈ step.1.1, e ∈ c.edges := fun e he =>
    List.mem_dedup.2 (List.mem_flatMap.2 ⟨_, hmem, he⟩)
  -- nodes have different names, so the name of the node behind gives its position
  have hposition : (c.zones.zipIdx.map fun zone => r.node zone.2).idxOf? (r.node (step.2 + 1)) =
      some (step.2 + 1) := by
    have hlt : step.2 < c.steps.length + 0 := List.snd_lt_of_mem_zipIdx hstep
    have hi : step.2 + 1 < (c.zones.zipIdx.map fun zone => r.node zone.2).length := by
      simpa [Chain.zones] using hlt
    have hget : (c.zones.zipIdx.map fun zone => r.node zone.2)[step.2 + 1] =
        r.node (step.2 + 1) := by simp
    exact hget ▸ idxOf?_getElem (nodup_zipIdx r.nodup_node) hi
  have hread : (step.1.1.map r.edge).mapM (Document.edge r.definitions) = .ok step.1.1 := by
    rw [List.mapM_map]
    refine (mapM_eq_ok fun e he => ?_).trans (congrArg Except.ok (List.map_id _))
    exact edge_edge r (h.edges _ hmem e he) (hedges e he)
  have hattributes : (r.transitionElement step).required "to" = .ok (r.node (step.2 + 1)) ∧
    (r.transitionElement step).attribute? "edges" = some (String.ofList
      ([' '].intercalate (step.1.1.map fun e => (r.edge e).toList))) := ⟨rfl, rfl⟩
  rw [move, hattributes.1]
  simp only [bind, Except.bind, hposition, hattributes.2, Option.getD_some, words_edges r hedges,
    hread]
  rfl

/-! ### Chains -/

lemma childrenNamed_element :
    r.element.childrenNamed "node" = c.zones.zipIdx.map r.nodeElement ∧
      r.element.childrenNamed "transition" = c.steps.zipIdx.map r.transitionElement := by
  simp [Element.childrenNamed, element, List.filter_map, Function.comp_def, clockElement,
    processElement, locationElement, edgeElement, zoneElement, nodeElement, transitionElement]

lemma named_edgeElement (e : WitnessEdge) : (r.edgeElement e).Named := by
  have hname : ∀ name ∈ ["id", "process", "from", "to", "sync"], Markup.isName name = true := by
    decide
  refine ⟨rfl, ?_, nofun⟩
  cases r.namesProcess <;> cases r.emptySync <;> cases e.sync <;> simp [hname]

lemma named_zoneElement (zone : List Difference × Nat) : (r.zoneElement zone).Named := by
  refine ⟨rfl, ?_, ?_⟩
  · simp only [List.all_cons]
    rfl
  · rw [List.forall_mem_map]
    refine fun d _ => ⟨rfl, ?_, nofun⟩
    simp only [List.all_cons]
    rfl

lemma named_element : r.element.Named := by
  refine ⟨rfl, rfl, ?_⟩
  simp only [List.forall_mem_append, List.forall_mem_map]
  refine ⟨fun _ _ => ⟨rfl, ?_, nofun⟩, fun _ _ => ⟨rfl, ?_, nofun⟩, fun _ _ => ⟨rfl, ?_, nofun⟩,
    fun e _ => r.named_edgeElement e, fun zone _ => r.named_zoneElement zone,
    fun _ _ => ⟨rfl, ?_, nofun⟩, fun _ _ => ⟨rfl, ?_, nofun⟩⟩
  all_goals
    simp only [List.all_cons]
    rfl

/-- A chain that has been written as a document is read back. -/
theorem read_document (h : c.Written) : Document.read r.document = .ok c.witness := by
  have hstates : states r.definitions [] (c.zones.zipIdx.map r.nodeElement) =
      .ok (c.zones.zipIdx.map fun zone => (r.node zone.2, ⟨zone.1⟩)) :=
    states_eq_ok (fun _ => rfl) (fun zone hzone => state_nodeElement r h hzone)
      (nodup_zipIdx r.nodup_node) fun _ _ => List.not_mem_nil
  have hmoves : (c.steps.zipIdx.map r.transitionElement).mapM
      (move r.definitions (c.zones.zipIdx.map fun zone => r.node zone.2)) =
        .ok c.witness.moves := by
    rw [List.mapM_map]
    exact mapM_eq_ok fun step hstep => move_transitionElement r h hstep
  have hzones : (c.zones.zipIdx.map fun zone => SymbolicState.mk zone.1) = c.witness.states := by
    have hmap := congrArg (List.map SymbolicState.mk) (List.zipIdx_map_fst 0 c.zones)
    rwa [List.map_map] at hmap
  obtain ⟨hnodes, htransitions⟩ := childrenNamed_element r
  rw [Document.read, document, Markup.read_chars r.named_element]
  show Document.witness r.element = _
  rw [Document.witness, definitions_element, hnodes, htransitions]
  simp only [bind, Except.bind, hstates, List.map_map, Function.comp_def, hmoves, hzones]
  rfl

end Rendering

end TimedPatterns
