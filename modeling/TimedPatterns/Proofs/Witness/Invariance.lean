import TimedPatterns.Proofs.Markup.Writing
import TimedPatterns.Proofs.Witness.Alike
import TimedPatterns.Proofs.Witness.Document
import TimedPatterns.Proofs.Witness.Rearrangement
import TimedPatterns.Witness.Extraction

/-!
# Reading a rearranged document

If the children of a trace are rearranged, the traces of the document stay the same, as long as the
ids of each kind are distinct. The tables of what the children define have the same entries, if not
in the same order; a table is only looked up, so an edge and the name of a location stay the same,
and so do the constraints of a state up to their order. Nodes may stand at other positions, but a
transition names its node by an id, and so it leads to the same state.
-/

namespace TimedPatterns.Document

variable {cs cs' before after : List Element} {e e' : Element} {name : String}

/-! ### Definitions -/

/-- The id of an element that has one. -/
def idOf (e : Element) : String := (e.attribute? "id").getD ""

/-- The name that an element gives, if it gives one. -/
def nameOf (e : Element) : String := (e.attribute? "name").getD ""

/-- What the children of a trace define if none of them is refused. -/
def defined (cs : List Element) : Definitions where
  clocks := ((named "clock" cs).map fun e => (idOf e, clockOfName (nameOf e))).reverse
  processes := ((named "process" cs).map fun e => (idOf e, nameOf e)).reverse
  locations := ((named "location" cs).map fun e => (idOf e, e)).reverse
  edges := ((named "edge" cs).map fun e => (idOf e, e)).reverse
  instances := ((named "dbm_instance" cs).map fun e => (idOf e, e)).reverse

/-- The element has the attributes that its kind needs to define something. -/
structure Complete (e : Element) : Prop where
  id : e.name ∈ ["clock", "process", "location", "edge", "dbm_instance"] →
    e.attribute? "id" = some (idOf e)
  name : e.name ∈ ["clock", "process"] → e.attribute? "name" = some (nameOf e)

lemma required_eq_ok_iff {value : String} :
    e.required name = .ok value ↔ e.attribute? name = some value := by
  rw [Element.required]
  cases e.attribute? name <;> simp

lemma attribute?_idOf {id : String} (h : e.required "id" = .ok id) :
    e.attribute? "id" = some (idOf e) := by
  rw [idOf, required_eq_ok_iff.1 h, Option.getD_some]

lemma attribute?_nameOf (h : e.required "name" = .ok name) :
    e.attribute? "name" = some (nameOf e) := by
  rw [nameOf, required_eq_ok_iff.1 h, Option.getD_some]

lemma attribute?_of_define {table table' : List (String × Element)}
    (h : define table e = .ok table') : e.attribute? "id" = some (idOf e) := by
  obtain ⟨id, hid, -⟩ := bind_eq_ok_iff.1 h
  exact attribute?_idOf hid

/-- What has been added to the definitions is complete. -/
lemma complete_of_add {d d' : Definitions} (h : d.add e = .ok d') : Complete e := by
  rw [Definitions.add] at h
  split_ifs at h with hclock hprocess hlocation hedge hinstance
  · simp only [bind_eq_ok_iff] at h
    obtain ⟨_, hname, _, hid, -⟩ := h
    exact ⟨fun _ => attribute?_idOf hid, fun _ => attribute?_nameOf hname⟩
  · simp only [bind_eq_ok_iff] at h
    obtain ⟨_, hid, _, hname, -⟩ := h
    exact ⟨fun _ => attribute?_idOf hid, fun _ => attribute?_nameOf hname⟩
  · obtain ⟨_, hdefine, -⟩ := bind_eq_ok_iff.1 h
    exact ⟨fun _ => attribute?_of_define hdefine, fun hmem => absurd hmem (by simp [hlocation])⟩
  · obtain ⟨_, hdefine, -⟩ := bind_eq_ok_iff.1 h
    exact ⟨fun _ => attribute?_of_define hdefine, fun hmem => absurd hmem (by simp [hedge])⟩
  · obtain ⟨_, hdefine, -⟩ := bind_eq_ok_iff.1 h
    exact ⟨fun _ => attribute?_of_define hdefine, fun hmem => absurd hmem (by simp [hinstance])⟩
  · exact ⟨fun hmem => absurd hmem (by simp [hclock, hprocess, hlocation, hedge, hinstance]),
      fun hmem => absurd hmem (by simp [hclock, hprocess])⟩

lemma complete_of_foldlM {d d' : Definitions} (h : cs.foldlM Definitions.add d = .ok d') :
    ∀ e ∈ cs, Complete e := by
  induction cs generalizing d with
  | nil => exact nofun
  | cons e cs ih =>
    rw [List.foldlM_cons, bind_eq_ok_iff] at h
    obtain ⟨_, hadd, hrest⟩ := h
    exact List.forall_mem_cons.2 ⟨complete_of_add hadd, ih hrest⟩

lemma Complete.of_like (h : Complete e) (hlike : e.Like e') : Complete e' := by
  refine ⟨fun hmem => ?_, fun hmem => ?_⟩
  · rw [← hlike.name] at hmem
    rw [idOf, ← hlike.attribute?_eq, ← idOf, h.id hmem]
  · rw [← hlike.name] at hmem
    rw [nameOf, ← hlike.attribute?_eq, ← nameOf, h.name hmem]

/-- The kinds of children of a trace that define something. -/
def definers : List String := ["clock", "process", "location", "edge", "dbm_instance"]

lemma map_attribute?_eq (hcomplete : ∀ e ∈ cs, Complete e) (hname : name ∈ definers) :
    (named name cs).map (·.attribute? "id") = ((named name cs).map idOf).map some := by
  rw [List.map_map]
  refine List.map_congr_left fun e he => ?_
  obtain ⟨hmem, rfl⟩ := mem_named.1 he
  exact (hcomplete e hmem).id hname

lemma nodup_map_idOf (hcomplete : ∀ e ∈ cs, Complete e) (hdistinct : DistinctIds cs)
    (hname : name ∈ definers) : ((named name cs).map idOf).Nodup := by
  have hkind : name ∈ kinds := List.mem_append_left ["node"] hname
  have hnodup := hdistinct name hkind
  rw [map_attribute?_eq hcomplete hname] at hnodup
  exact hnodup.of_map some

/-- A table after one more child. -/
lemma reverse_map_named_concat {β : Type} (f : Element → β) (before : List Element) (e : Element) :
    ((named name (before ++ [e])).map f).reverse =
      if e.name = name then f e :: ((named name before).map f).reverse
      else ((named name before).map f).reverse := by
  rw [named_append, List.map_append, List.reverse_append]
  split_ifs with h
  · subst h
    rw [named_cons_self]
    rfl
  · rw [named_cons_of_ne h]
    rfl

/-- A complete child under a new id is entered in its table. -/
lemma define_eq (hcomplete : ∀ x ∈ before ++ [e], Complete x)
    (hdistinct : DistinctIds (before ++ [e])) (hname : e.name ∈ definers) :
    define ((named e.name before).map fun e => (idOf e, e)).reverse e =
      .ok ((named e.name (before ++ [e])).map fun e => (idOf e, e)).reverse := by
  have hfree : idOf e ∉ (named e.name before).map idOf := by
    have hnodup := nodup_map_idOf hcomplete hdistinct hname
    rw [named_append, named_cons_self, List.map_append, List.nodup_append] at hnodup
    exact fun hmem => hnodup.2.2 _ hmem _ List.mem_cons_self rfl
  rw [define_eq_ok ((hcomplete e List.mem_concat_self).id hname) (lookup_reverse_map_eq_none hfree),
    reverse_map_named_concat, if_pos rfl]

/-- A complete child under a new id is added to what those before it define. -/
lemma add_defined (hcomplete : ∀ x ∈ before ++ [e], Complete x)
    (hdistinct : DistinctIds (before ++ [e])) :
    (defined before).add e = .ok (defined (before ++ [e])) := by
  have he := hcomplete e List.mem_concat_self
  have htable := define_eq hcomplete hdistinct
  rw [Definitions.add]
  -- what a clock or a process is called is read from two attributes, the other kinds are kept whole
  split_ifs with hclock hprocess hlocation hedge hinstance
  · have hid := required_eq_ok_iff.2 (he.id (by simp [hclock]))
    have hname := required_eq_ok_iff.2 (he.name (by simp [hclock]))
    simp [hid, hname, bind, Except.bind, pure, Except.pure, defined, reverse_map_named_concat,
      hclock]
  · have hid := required_eq_ok_iff.2 (he.id (by simp [hprocess]))
    have hname := required_eq_ok_iff.2 (he.name (by simp [hprocess]))
    simp [hid, hname, bind, Except.bind, pure, Except.pure, defined, reverse_map_named_concat,
      hprocess]
  · rw [hlocation] at htable
    simp [bind, Except.bind, pure, Except.pure, defined, htable (by decide),
      reverse_map_named_concat, hlocation]
  · rw [hedge] at htable
    simp [bind, Except.bind, pure, Except.pure, defined, htable (by decide),
      reverse_map_named_concat, hedge]
  · rw [hinstance] at htable
    simp [bind, Except.bind, pure, Except.pure, defined, htable (by decide),
      reverse_map_named_concat, hinstance]
  · simp [defined, reverse_map_named_concat, hclock, hprocess, hlocation, hedge, hinstance]

lemma DistinctIds.of_append (h : DistinctIds (before ++ after)) : DistinctIds before := by
  intro kind hkind
  have hnodup := h kind hkind
  rw [named_append, List.map_append] at hnodup
  exact hnodup.of_append_left

/-- The definitions of complete children under distinct ids. -/
lemma foldlM_add_eq_ok (hcomplete : ∀ x ∈ cs, Complete x) (hdistinct : DistinctIds cs) :
    cs.foldlM Definitions.add {} = .ok (defined cs) := by
  refine foldlM_eq_ok defined fun before e after hcs => ?_
  have hsplit : cs = (before ++ [e]) ++ after := by
    rw [hcs, List.append_assoc, List.singleton_append]
  subst hsplit
  exact add_defined (fun x hx => hcomplete x (List.mem_append_left _ hx)) hdistinct.of_append

/-! ### Tables -/

/-- Two definitions have the same under each id, up to the order of bounds. -/
structure Definitions.Alike (d d' : Definitions) : Prop where
  clocks (id : String) : Option.Rel Eq (d.clocks.lookup id) (d'.clocks.lookup id)
  processes (id : String) : Option.Rel Eq (d.processes.lookup id) (d'.processes.lookup id)
  locations (id : String) : Option.Rel Element.Like (d.locations.lookup id) (d'.locations.lookup id)
  edges (id : String) : Option.Rel Element.Like (d.edges.lookup id) (d'.edges.lookup id)
  instances (id : String) : Option.Rel Element.Like (d.instances.lookup id) (d'.instances.lookup id)

lemma idOf_eq_of_like (h : e.Like e') : idOf e = idOf e' := by
  rw [idOf, idOf, h.attribute?_eq]

/-- What is defined by children that are alike. -/
lemma Alike.defined (h : Alike cs cs') (hcomplete : ∀ x ∈ cs, Complete x)
    (hdistinct : DistinctIds cs) : (defined cs).Alike (defined cs') := by
  -- with different names an entry is looked up the same, wherever in the table it stands
  have htable {β : Type} {R : β → β → Prop} {value : Element → β} {kind : String}
      (hkind : kind ∈ definers) (hR : ∀ e e', e.Like e' → R (value e) (value e')) (id : String) :
      Option.Rel R (((named kind cs).map fun e => (idOf e, value e)).reverse.lookup id)
        (((named kind cs').map fun e => (idOf e, value e)).reverse.lookup id) := by
    have hkinds : kind ∈ kinds := List.mem_append_left ["node"] hkind
    refine lookup_reverse_map_rel (nodup_map_idOf hcomplete hdistinct hkind) ?_ ?_ id
    · have hids := (h.ids kind hkinds).map (·.getD "")
      rw [List.map_map, List.map_map] at hids
      exact hids
    · intro e he
      obtain ⟨hmem, rfl⟩ := mem_named.1 he
      obtain ⟨e', he', hlike⟩ := h.kept e hmem hkinds
      exact ⟨e', mem_named.2 ⟨he', hlike.name.symm⟩, (idOf_eq_of_like hlike).symm, hR e e' hlike⟩
  have hname (e e' : Element) (hlike : e.Like e') : nameOf e = nameOf e' := by
    rw [nameOf, nameOf, hlike.attribute?_eq]
  exact ⟨htable (by decide) fun e e' hlike => congrArg clockOfName (hname e e' hlike),
    htable (by decide) hname, htable (by decide) fun _ _ => id, htable (by decide) fun _ _ => id,
    htable (by decide) fun _ _ => id⟩

/-! ### Edges -/

section Reading

variable {d d' : Definitions}

lemma refer_cases {β : Type} {R : β → β → Prop} {table table' : List (String × β)} {id : String}
    (h : Option.Rel R (table.lookup id) (table'.lookup id)) (kind : String) :
    (∃ value value', refer kind table id = .ok value ∧ refer kind table' id = .ok value' ∧
      R value value') ∨ ∃ flaw, refer kind table id = .error flaw ∧
        refer kind table' id = .error flaw := by
  rw [refer, refer]
  generalize table.lookup id = found, table'.lookup id = found' at h ⊢
  cases h with
  | none => exact .inr ⟨_, rfl, rfl⟩
  | some hR => exact .inl ⟨_, _, rfl, rfl, hR⟩

lemma refer_clock_eq (h : d.Alike d') (id : String) :
    refer "clock" d.clocks id = refer "clock" d'.clocks id := by
  rcases refer_cases (h.clocks id) "clock" with ⟨_, _, hd, hd', rfl⟩ | ⟨_, hd, hd'⟩ <;> rw [hd, hd']

lemma processName_eq (h : d.Alike d') : processName d = processName d' := by
  funext id
  have hrel := h.processes id
  rw [processName, processName]
  generalize d.processes.lookup id = found, d'.processes.lookup id = found' at hrel ⊢
  cases hrel with
  | none => rfl
  | some heq => rw [heq]

lemma locationName_eq (h : d.Alike d') (id : String) : locationName d id = locationName d' id := by
  rw [locationName, locationName]
  rcases refer_cases (h.locations id) "location" with ⟨e, e', hd, hd', hlike⟩ | ⟨_, hd, hd'⟩
  · rw [hd, hd']
    simp only [bind, Except.bind, hlike.attribute?_eq, processName_eq h]
  · rw [hd, hd']
    rfl

lemma edge_eq (h : d.Alike d') : edge d = edge d' := by
  funext id
  rw [edge, edge]
  rcases refer_cases (h.edges id) "edge" with ⟨e, e', hd, hd', hlike⟩ | ⟨_, hd, hd'⟩
  · rw [hd, hd']
    simp only [bind, Except.bind, hlike.attribute?_eq, hlike.required_eq, processName_eq h,
      locationName_eq h]
  · rw [hd, hd']
    rfl

/-! ### States -/

lemma difference?_eq (h : d.Alike d') (e : Element) : difference? d e = difference? d' e := by
  simp only [difference?, refer_clock_eq h]

lemma differences_eq_map_mapM (d : Definitions) (es : List Element) :
    differences d es = (es.mapM (difference? d)).map (·.flatMap Option.toList) :=
  collect_eq_map_mapM (difference? d) (differences d) rfl (fun _ _ => rfl) es

lemma differences_eq_ok_iff {es : List Element} {ds : List Difference} :
    differences d es = .ok ds ↔
      ∃ found, List.Forall₂ (fun e o => difference? d e = .ok o) es found ∧
        ds = found.flatMap Option.toList :=
  collect_eq_ok_iff (differences_eq_map_mapM d)

/-- The constraints of bounds in another order. -/
lemma differences_perm (h : d.Alike d') {es es' : List Element} (hperm : es.Perm es')
    {ds : List Difference} (hds : differences d es = .ok ds) :
    ∃ ds', differences d' es' = .ok ds' ∧ ds.Perm ds' := by
  simp only [differences_eq_ok_iff, ← difference?_eq h] at hds ⊢
  obtain ⟨found, hfound, rfl⟩ := hds
  obtain ⟨found', hfound', hperm'⟩ := List.perm_comp_forall₂ hperm.symm hfound
  exact ⟨_, ⟨found', hfound', rfl⟩, (hperm'.flatMap_right _).symm⟩

/-- The state of a node that is like another one. -/
lemma state_perm (h : d.Alike d') (hlike : e.Like e') {s : SymbolicState} (hs : state d e = .ok s) :
    ∃ s', state d' e' = .ok s' ∧ s.differences.Perm s'.differences := by
  rw [state, hlike.attribute?_eq] at hs
  rw [state]
  cases hattribute : e'.attribute? "dbm_instance" with
  | none =>
    rw [hattribute] at hs
    cases hs
    exact ⟨_, rfl, .refl _⟩
  | some id =>
    simp only [hattribute, bind_eq_ok_iff] at hs ⊢
    obtain ⟨found, hfound, ds, hds, ⟨⟩⟩ := hs
    rcases refer_cases (h.instances id) "dbm_instance" with
      ⟨_, found', hd, hd', hlike'⟩ | ⟨_, hd, -⟩
    · cases hfound.symm.trans hd
      obtain ⟨ds', hds', hperm⟩ := differences_perm h (hlike'.childrenNamed_perm "clockbound") hds
      exact ⟨⟨ds'⟩, ⟨found', hd', ds', hds', rfl⟩, hperm⟩
    · cases hfound.symm.trans hd

/-- The node has the id and the state. -/
def Stands (d : Definitions) (node : Element) (found : String × SymbolicState) : Prop :=
  node.attribute? "id" = some found.1 ∧ state d node = .ok found.2

/-- A node is read if its id has not been seen before, and then the others are. -/
lemma states_cons_eq_ok_iff {known : List String} {node : Element} {nodes : List Element}
    {found : List (String × SymbolicState)} : states d known (node :: nodes) = .ok found ↔
      ∃ p rest, Stands d node p ∧ p.1 ∉ known ∧ states d (p.1 :: known) nodes = .ok rest ∧
        found = p :: rest := by
  rw [states, bind_eq_ok_iff]
  constructor
  · rintro ⟨id, hid, h⟩
    split_ifs at h with hknown
    · cases h
    · simp only [bind_eq_ok_iff] at h
      obtain ⟨s, hs, rest, hrest, ⟨⟩⟩ := h
      exact ⟨(id, s), rest, ⟨required_eq_ok_iff.1 hid, hs⟩, hknown, hrest, rfl⟩
  · rintro ⟨⟨id, s⟩, rest, ⟨hid, hs⟩, hknown, hrest, rfl⟩
    refine ⟨id, required_eq_ok_iff.2 hid, ?_⟩
    rw [if_neg hknown]
    exact bind_eq_ok_iff.2 ⟨s, hs, bind_eq_ok_iff.2 ⟨rest, hrest, rfl⟩⟩

lemma states_eq_ok_iff {known : List String} {nodes : List Element}
    {found : List (String × SymbolicState)} : states d known nodes = .ok found ↔
      List.Forall₂ (Stands d) nodes found ∧ (found.map (·.1)).Nodup ∧ ∀ p ∈ found, p.1 ∉ known := by
  induction nodes generalizing known found with
  | nil =>
    rw [List.forall₂_nil_left_iff]
    exact ⟨by rintro ⟨⟩; exact ⟨rfl, .nil, nofun⟩, by rintro ⟨rfl, -⟩; rfl⟩
  | cons node nodes ih =>
    simp only [states_cons_eq_ok_iff, ih, List.forall₂_cons_left_iff]
    constructor
    · rintro ⟨p, rest, hp, hknown, ⟨hrest, hnodup, hfree⟩, rfl⟩
      refine ⟨⟨p, rest, hp, hrest, rfl⟩, ?_, ?_⟩
      · rw [List.map_cons, List.nodup_cons, List.mem_map]
        refine ⟨?_, hnodup⟩
        rintro ⟨q, hq, heq⟩
        exact hfree q hq (heq ▸ List.mem_cons_self)
      · exact List.forall_mem_cons.2
          ⟨hknown, fun q hq hmem => hfree q hq (List.mem_cons_of_mem _ hmem)⟩
    · rintro ⟨⟨p, rest, hp, hrest, rfl⟩, hnodup, hknown⟩
      obtain ⟨hfree, hknown⟩ := List.forall_mem_cons.1 hknown
      rw [List.map_cons, List.nodup_cons, List.mem_map] at hnodup
      refine ⟨p, rest, hp, hfree, ⟨hrest, hnodup.2, fun q hq hmem => ?_⟩, rfl⟩
      rcases List.mem_cons.1 hmem with heq | hmem
      · exact hnodup.1 ⟨q, hq, heq⟩
      · exact hknown q hq hmem

/-- The nodes that have been read have their ids. -/
lemma map_attribute?_of_stands {nodes : List Element} {found : List (String × SymbolicState)}
    (h : List.Forall₂ (Stands d) nodes found) :
    nodes.map (·.attribute? "id") = (found.map (·.1)).map some := by
  induction h with
  | nil => rfl
  | cons hnode _ ih => rw [List.map_cons, List.map_cons, List.map_cons, hnode.1, ih]

/-- Under the same distinct ids stand the same states, up to the order of their constraints. -/
structure StandAlike (found found' : List (String × SymbolicState)) : Prop where
  nodup : (found.map (·.1)).Nodup
  ids : (found.map (·.1)).Perm (found'.map (·.1))
  states : ∀ p ∈ found, ∃ s', (p.1, s') ∈ found' ∧ p.2.differences.Perm s'.differences

/-- The nodes of children that are alike. -/
lemma states_alike (h : Alike cs cs') (hd : d.Alike d') {found : List (String × SymbolicState)}
    (hfound : states d [] (named "node" cs) = .ok found) :
    ∃ found', states d' [] (named "node" cs') = .ok found' ∧ StandAlike found found' := by
  obtain ⟨hstands, hnodup, -⟩ := states_eq_ok_iff.1 hfound
  have hkind : "node" ∈ kinds := by decide
  have hall : ∀ node' ∈ named "node" cs', ∃ p', Stands d' node' p' := by
    intro node' hnode'
    obtain ⟨hmem', hname'⟩ := mem_named.1 hnode'
    obtain ⟨node, hmem, hlike⟩ := h.given node' hmem' (hname' ▸ hkind)
    obtain ⟨p, -, hid, hs⟩ := exists_of_forall₂_left hstands
      (mem_named.2 ⟨hmem, hlike.name.symm.trans hname'⟩)
    obtain ⟨s', hs', -⟩ := state_perm hd hlike.symm hs
    exact ⟨(p.1, s'), (hlike.attribute?_eq "id").trans hid, hs'⟩
  obtain ⟨found', hstands'⟩ := exists_forall₂ hall
  -- the nodes have the same names, in another order
  have hperm : (found.map (·.1)).Perm (found'.map (·.1)) := by
    have hperm := h.ids "node" hkind
    rw [map_attribute?_of_stands hstands, map_attribute?_of_stands hstands'] at hperm
    have hback := hperm.map (·.getD "")
    simp only [List.map_map, Function.comp_def, Option.getD_some] at hback
    exact hback
  refine ⟨found', states_eq_ok_iff.2 ⟨hstands', hperm.nodup_iff.1 hnodup, nofun⟩, hnodup, hperm, ?_⟩
  intro p hp
  obtain ⟨node, hnode, hid, hs⟩ :=
    exists_of_forall₂_left (List.Forall₂.flip (R := flip (Stands d)) hstands) hp
  obtain ⟨hmem, hname⟩ := mem_named.1 hnode
  obtain ⟨node', hmem', hlike⟩ := h.kept node hmem (hname ▸ hkind)
  obtain ⟨p', hp', hid', hs'⟩ := exists_of_forall₂_left hstands'
    (mem_named.2 ⟨hmem', hlike.name.symm.trans hname⟩)
  obtain ⟨s', hs'', hperm'⟩ := state_perm hd hlike hs
  obtain rfl : p'.2 = s' := Except.ok.inj (hs'.symm.trans hs'')
  have heq : p.1 = p'.1 := Option.some.inj (hid.symm.trans ((hlike.attribute?_eq "id").trans hid'))
  exact ⟨p'.2, heq ▸ hp', hperm'⟩

/-! ### Moves -/

/-- A transition leads to states with the same constraints, wherever their nodes stand. -/
lemma move_alike (hd : d.Alike d') {found found' : List (String × SymbolicState)}
    (h : StandAlike found found') {m : Move} (hm : move d (found.map (·.1)) e = .ok m) :
    ∃ m', move d' (found'.map (·.1)) e = .ok m' ∧
      m.Alike (found.map (·.2)) (found'.map (·.2)) m' := by
  rw [move, bind_eq_ok_iff] at hm
  obtain ⟨target, htarget, hm⟩ := hm
  cases hposition : (found.map (·.1)).idxOf? target with
  | none =>
    rw [hposition] at hm
    cases hm
  | some position =>
    rw [hposition] at hm
    obtain ⟨edges, hedges, ⟨⟩⟩ := bind_eq_ok_iff.1 hm
    obtain ⟨hlt, hget, -⟩ := List.idxOf?_eq_some_iff.1 hposition
    rw [List.length_map] at hlt
    rw [List.getElem_map] at hget
    obtain ⟨s', hmem', hperm'⟩ := h.states found[position] (List.getElem_mem hlt)
    obtain ⟨position', hlt', hget'⟩ := List.getElem_of_mem hmem'
    -- the target is at another position, but it has the same name and the same constraints
    have hposition' : (found'.map (·.1)).idxOf? target = some position' := by
      have hidx := idxOf?_getElem (h.ids.nodup_iff.1 h.nodup) (i := position')
        (by rwa [List.length_map])
      rwa [List.getElem_map, hget', hget] at hidx
    refine ⟨⟨edges, position'⟩, ?_, rfl, found[position].2, s', ?_, ?_, hperm'⟩
    · rw [move, htarget]
      simp only [bind, Except.bind, hposition', ← edge_eq hd, hedges]
      rfl
    · rw [List.getElem?_map, List.getElem?_eq_getElem hlt, Option.map_some]
    · rw [List.getElem?_map, List.getElem?_eq_getElem hlt', Option.map_some, hget']

lemma moves_alike (hd : d.Alike d') {found found' : List (String × SymbolicState)}
    (h : StandAlike found found') {ts : List Element} {moves : List Move}
    (hmoves : ts.mapM (move d (found.map (·.1))) = .ok moves) :
    ∃ moves', ts.mapM (move d' (found'.map (·.1))) = .ok moves' ∧
      List.Forall₂ (Move.Alike (found.map (·.2)) (found'.map (·.2))) moves moves' := by
  simp only [mapM_eq_ok_iff] at hmoves ⊢
  induction hmoves with
  | nil => exact ⟨[], .nil, .nil⟩
  | cons hm _ ih =>
    obtain ⟨m', hm', halike⟩ := move_alike hd h hm
    obtain ⟨moves', hmoves', hall⟩ := ih
    exact ⟨m' :: moves', .cons hm' hmoves', .cons halike hall⟩

/-! ### Documents -/

lemma Alike.distinctIds (h : Alike cs cs') (hdistinct : DistinctIds cs) : DistinctIds cs' :=
  fun kind hkind => (h.ids kind hkind).nodup_iff.1 (hdistinct kind hkind)

lemma Alike.complete (h : Alike cs cs') (hcomplete : ∀ x ∈ cs, Complete x) :
    ∀ x ∈ cs', Complete x := by
  intro x hx
  by_cases hkind : x.name ∈ kinds
  · obtain ⟨y, hy, hlike⟩ := h.given x hx hkind
    exact (hcomplete y hy).of_like hlike.symm
  · exact ⟨fun hmem => absurd (List.mem_append_left ["node"] hmem) hkind,
      fun hmem =>
        absurd (List.mem_append_left ["location", "edge", "dbm_instance", "node"] hmem) hkind⟩

/-- Children that are alike make witnesses that are alike. -/
lemma witness_alike {trace trace' : Element} {w : Witness}
    (h : Alike trace.children trace'.children) (hdistinct : DistinctIds trace.children)
    (hw : witness trace = .ok w) :
    ∃ w', witness trace' = .ok w' ∧ w.Alike w' := by
  simp only [witness, bind_eq_ok_iff] at hw
  obtain ⟨d, hd, found, hfound, moves, hmoves, ⟨⟩⟩ := hw
  have hcomplete := complete_of_foldlM hd
  obtain rfl : defined trace.children = d :=
    Except.ok.inj ((foldlM_add_eq_ok hcomplete hdistinct).symm.trans hd)
  have hd' : definitions trace' = .ok (defined trace'.children) :=
    foldlM_add_eq_ok (h.complete hcomplete) (h.distinctIds hdistinct)
  have halike := h.defined hcomplete hdistinct
  -- first the tables, then the states, then the moves between them
  obtain ⟨found', hfound', hstand⟩ := states_alike h halike hfound
  obtain ⟨moves', hmoves', hall⟩ := moves_alike halike hstand hmoves
  have htransitions : trace.childrenNamed "transition" = trace'.childrenNamed "transition" :=
    h.transitions
  refine ⟨⟨found'.map (·.2), moves'⟩, ?_, ?_, hall⟩
  · simp only [witness, bind_eq_ok_iff]
    exact ⟨_, hd', found', hfound', moves', htransitions ▸ hmoves', rfl⟩
  · have hempty := hstand.ids.isEmpty_eq
    rw [List.isEmpty_map, List.isEmpty_map] at hempty
    rw [List.isEmpty_map, List.isEmpty_map, hempty]

end Reading

/-- A document is read as the witness of its trace. -/
lemma read_eq_witness {text : String} {root trace : Element} (hroot : Markup.read text = .ok root)
    (htrace : traceElement root = .ok trace) : Document.read text = witness trace := by
  rw [Document.read, hroot]
  simp only [htrace, bind, Except.bind]

/-- A document has the same traces as every document whose trace has the same children rearranged,
if it is read at all and the ids of each kind are distinct in it. -/
theorem traceOfText_eq_of_rearranged {text text' : String} {root root' trace trace' : Element}
    (hroot : Markup.read text = .ok root) (htrace : traceElement root = .ok trace)
    (hroot' : Markup.read text' = .ok root') (htrace' : traceElement root' = .ok trace')
    (hread : ∃ w, Document.read text = .ok w) (hdistinct : DistinctIds trace.children)
    (h : Rearranged trace.children trace'.children) (clock path : String) :
    Extraction.traceOfText .xml clock path text' = Extraction.traceOfText .xml clock path text := by
  obtain ⟨w, hw⟩ := hread
  rw [read_eq_witness hroot htrace] at hw
  obtain ⟨w', hw', halike⟩ := witness_alike h.alike hdistinct hw
  have htraces : Witness.read .xml text = .ok w := (read_eq_witness hroot htrace).trans hw
  have htraces' : Witness.read .xml text' = .ok w' := (read_eq_witness hroot' htrace').trans hw'
  rw [Extraction.traceOfText, Extraction.traceOfText, htraces, htraces']
  exact congrArg (Except.mapError _) (halike.trace_eq clock).symm

namespace Sample

def boundElement (left right bound : String) : Element :=
  ⟨"clockbound", [("clock1", left), ("clock2", right), ("bound", bound)], []⟩

/-- What one step from `idle` to `sent` needs: clocks, a process with its locations, and an edge. -/
def symbols : List Element :=
  [⟨"clock", [("id", "c0"), ("name", "t(0)")], []⟩, ⟨"clock", [("id", "c1"), ("name", "x")], []⟩,
    ⟨"process", [("id", "p0"), ("name", "P")], []⟩,
    ⟨"location", [("id", "l0"), ("process", "p0"), ("name", "idle")], []⟩,
    ⟨"location", [("id", "l1"), ("process", "p0"), ("name", "sent")], []⟩,
    ⟨"edge", [("id", "e0"), ("from", "l0"), ("to", "l1"), ("sync", "send!")], []⟩]

/-- The bounds of the state behind the step. -/
def sentBounds : List Element :=
  [boundElement "c0" "c1" "-2", boundElement "c1" "c0" "7", boundElement "c0" "c1" "-3"]

/-- The nodes before and behind the step, and the step. -/
def steps : List Element :=
  [⟨"node", [("id", "s0")], []⟩, ⟨"node", [("id", "s1"), ("dbm_instance", "d1")], []⟩,
    ⟨"transition", [("to", "s1"), ("edges", "e0")], []⟩]

/-- A trace of one step, with the bounds of the state behind it. -/
def children (bounds : List Element) : List Element :=
  symbols ++ ⟨"dbm_instance", [("id", "d1")], bounds⟩ :: steps

def trace : Element := ⟨"trace", [], children sentBounds⟩

/-- The same trace, backwards and with a child that is not read. -/
def rearranged : Element :=
  ⟨"trace", [], ⟨"variable_vector", [("id", "v0")], []⟩ :: (children sentBounds.reverse).reverse⟩

lemma named_children {bounds : List Element} (hbounds : ∀ e ∈ bounds, e.Named) :
    ∀ e ∈ children bounds, e.Named := by
  simp only [children, symbols, steps, List.cons_append, List.nil_append, List.forall_mem_cons]
  exact ⟨⟨rfl, rfl, nofun⟩, ⟨rfl, rfl, nofun⟩, ⟨rfl, rfl, nofun⟩, ⟨rfl, rfl, nofun⟩,
    ⟨rfl, rfl, nofun⟩, ⟨rfl, rfl, nofun⟩, ⟨rfl, rfl, hbounds⟩, ⟨rfl, rfl, nofun⟩,
    ⟨rfl, rfl, nofun⟩, ⟨rfl, rfl, nofun⟩, nofun⟩

lemma named_sentBounds : ∀ e ∈ sentBounds, e.Named := by
  simp only [sentBounds, List.forall_mem_cons]
  exact ⟨⟨rfl, rfl, nofun⟩, ⟨rfl, rfl, nofun⟩, ⟨rfl, rfl, nofun⟩, nofun⟩

lemma named_trace : trace.Named := ⟨rfl, rfl, named_children named_sentBounds⟩

lemma named_rearranged : rearranged.Named := by
  have hchildren := named_children fun e he => named_sentBounds e (List.mem_reverse.1 he)
  exact ⟨rfl, rfl, List.forall_mem_cons.2
    ⟨⟨rfl, rfl, nofun⟩, fun e he => hchildren e (List.mem_reverse.1 he)⟩⟩

lemma rearranged_children : Rearranged trace.children rearranged.children := by
  have hbounds : Rearranged trace.children (children sentBounds.reverse) :=
    .bounds (List.reverse_perm _).symm
  have horder : Rearranged (children sentBounds.reverse) (children sentBounds.reverse).reverse :=
    .order (List.reverse_perm _).symm rfl
  have hinsert : Rearranged ([] ++ (children sentBounds.reverse).reverse) rearranged.children :=
    .insert (by decide)
  exact (hbounds.trans horder).trans hinsert

end Sample

theorem traceOfText_eq_of_rearranged_sample :
    let text := String.ofList Sample.trace.chars
    let text' := String.ofList Sample.rearranged.chars
    Markup.read text = .ok Sample.trace ∧ Markup.read text' = .ok Sample.rearranged ∧
      DistinctIds Sample.trace.children ∧
      Rearranged Sample.trace.children Sample.rearranged.children ∧
      Extraction.traceOfText .xml "x" "run" text = .ok ⟨"x",
        [⟨"send", [⟨"P", "idle", "sent"⟩], ⟨3, some 7⟩⟩], by decide⟩ ∧
      Extraction.traceOfText .xml "x" "run" text' = Extraction.traceOfText .xml "x" "run" text := by
  have hread := Markup.read_chars Sample.named_trace
  have hread' := Markup.read_chars Sample.named_rearranged
  have hwitness : Document.read (String.ofList Sample.trace.chars) = witness Sample.trace :=
    read_eq_witness hread rfl
  obtain ⟨w, hw⟩ : ∃ w, witness Sample.trace = .ok w := ⟨_, rfl⟩
  have hdistinct : DistinctIds Sample.trace.children := by
    unfold DistinctIds
    decide
  refine ⟨hread, hread', hdistinct, Sample.rearranged_children, ?_, ?_⟩
  · rw [Extraction.traceOfText]
    show Except.mapError _ (Except.bind (Document.read _) _) = _
    rw [hwitness]
    rfl
  · exact traceOfText_eq_of_rearranged hread rfl hread' rfl ⟨w, hwitness.trans hw⟩ hdistinct
      Sample.rearranged_children "x" "run"

end TimedPatterns.Document
