import TimedPatterns.Proofs.Witness.Invariance

/-!
# Repeated ids in a witness document

A document is malformed if two locations, two edges, two instances or two nodes have the same id,
wherever they stand and whether or not anything refers to them. Two clocks or two processes may
have the same id: the later one takes the place of the earlier one, also in what refers to it from
before, and the document is read as if the earlier one were not there.

What a child adds to the ids of each kind is said once (`Definitions.ids_of_add`), and from it what
all of them do. Entries of clocks and processes that were made before others are carried along
below them (`Definitions.over`), and they do not matter if they are hidden.
-/

namespace TimedPatterns.Document

variable {d d' : Definitions} {e : Element} {cs : List Element} {kind id : String}

/-! ### Ids -/

/-- The kinds whose ids must be distinct. -/
def uniqueKinds : List String := ["location", "edge", "dbm_instance", "node"]

/-- The ids under which something of a kind is defined, the latest first. -/
def Definitions.ids (d : Definitions) (kind : String) : List String :=
  if kind = "clock" then d.clocks.map (·.1)
  else if kind = "process" then d.processes.map (·.1)
  else if kind = "location" then d.locations.map (·.1)
  else if kind = "edge" then d.edges.map (·.1)
  else if kind = "dbm_instance" then d.instances.map (·.1)
  else []

/-- A definition that is not refused has a new id. -/
lemma eq_of_define {table table' : List (String × Element)} (h : define table e = .ok table') :
    idOf e ∉ table.map (·.1) ∧ table' = (idOf e, e) :: table := by
  obtain ⟨id, hid, h⟩ := bind_eq_ok_iff.1 h
  obtain rfl : idOf e = id := by
    rw [idOf, required_eq_ok_iff.1 hid, Option.getD_some]
  cases hlookup : table.lookup (idOf e) with
  | some found =>
    rw [hlookup] at h
    cases h
  | none =>
    rw [hlookup] at h
    cases h
    refine ⟨fun hmem => ?_, rfl⟩
    obtain ⟨entry, hentry, heq⟩ := List.mem_map.1 hmem
    have hne := List.lookup_eq_none_iff.1 hlookup entry hentry
    exact bne_iff_ne.1 hne heq.symm

/-- What a child adds. Clocks and processes are added whether or not their id is new. -/
inductive Definitions.Adds (d : Definitions) (e : Element) : Definitions → Prop
  | clock (hname : e.name = "clock") :
      Adds d e { d with clocks := (idOf e, clockOfName (nameOf e)) :: d.clocks }
  | process (hname : e.name = "process") :
      Adds d e { d with processes := (idOf e, nameOf e) :: d.processes }
  | location (hname : e.name = "location") (hfree : idOf e ∉ d.locations.map (·.1)) :
      Adds d e { d with locations := (idOf e, e) :: d.locations }
  | edge (hname : e.name = "edge") (hfree : idOf e ∉ d.edges.map (·.1)) :
      Adds d e { d with edges := (idOf e, e) :: d.edges }
  | bounds (hname : e.name = "dbm_instance") (hfree : idOf e ∉ d.instances.map (·.1)) :
      Adds d e { d with instances := (idOf e, e) :: d.instances }
  | nothing (hname : e.name ∉ definers) : Adds d e d

lemma Definitions.Adds.of_add (h : d.add e = .ok d') : d.Adds e d' := by
  have hcomplete := complete_of_add h
  rw [add] at h
  -- a clock or a process is put on top of the table, the others are only added if their name is
  -- free
  split_ifs at h with hclock hprocess hlocation hedge hinstance
  · have hid := required_eq_ok_iff.2 (hcomplete.id (by simp [hclock]))
    have hname := required_eq_ok_iff.2 (hcomplete.name (by simp [hclock]))
    rw [hname, hid] at h
    cases h
    exact .clock hclock
  · have hid := required_eq_ok_iff.2 (hcomplete.id (by simp [hprocess]))
    have hname := required_eq_ok_iff.2 (hcomplete.name (by simp [hprocess]))
    rw [hid, hname] at h
    cases h
    exact .process hprocess
  · obtain ⟨table, htable, ⟨⟩⟩ := bind_eq_ok_iff.1 h
    obtain ⟨hfree, rfl⟩ := eq_of_define htable
    exact .location hlocation hfree
  · obtain ⟨table, htable, ⟨⟩⟩ := bind_eq_ok_iff.1 h
    obtain ⟨hfree, rfl⟩ := eq_of_define htable
    exact .edge hedge hfree
  · obtain ⟨table, htable, ⟨⟩⟩ := bind_eq_ok_iff.1 h
    obtain ⟨hfree, rfl⟩ := eq_of_define htable
    exact .bounds hinstance hfree
  · cases h
    exact .nothing (by simp [definers, hclock, hprocess, hlocation, hedge, hinstance])

/-- A child adds its id to those of its kind, where it must be new if the kind asks for that. -/
lemma Definitions.ids_of_add (h : d.add e = .ok d') (hkind : kind ∈ definers) :
    d'.ids kind = (if e.name = kind then [idOf e] else []) ++ d.ids kind ∧
      (e.name = kind → kind ∈ uniqueKinds → idOf e ∉ d.ids kind) := by
  simp only [definers, List.mem_cons, List.not_mem_nil, or_false] at hkind
  cases Adds.of_add h with
  | clock hname | process hname =>
    rcases hkind with rfl | rfl | rfl | rfl | rfl <;> simp [ids, uniqueKinds, hname]
  | location hname hfree | edge hname hfree | bounds hname hfree =>
    rcases hkind with rfl | rfl | rfl | rfl | rfl <;> simp [ids, uniqueKinds, hname, hfree]
  | nothing hname =>
    have hne : e.name ≠ kind := by
      rintro rfl
      exact hname (by simpa [definers] using hkind)
    simp [hne]

/-- The ids of the children are added to those of their kind. -/
lemma ids_of_foldlM (h : cs.foldlM Definitions.add d = .ok d') (hkind : kind ∈ definers) :
    d'.ids kind = ((named kind cs).map idOf).reverse ++ d.ids kind ∧
      (kind ∈ uniqueKinds → (d.ids kind).Nodup → (d'.ids kind).Nodup) := by
  induction cs generalizing d with
  | nil =>
    cases h
    exact ⟨rfl, fun _ => id⟩
  | cons e cs ih =>
    rw [List.foldlM_cons, bind_eq_ok_iff] at h
    obtain ⟨between, hadd, hrest⟩ := h
    obtain ⟨hids, hnodup⟩ := ih hrest
    obtain ⟨hbetween, hfree⟩ := Definitions.ids_of_add hadd hkind
    rw [hids, hbetween]
    by_cases hname : e.name = kind
    · subst hname
      rw [if_pos rfl, named_cons_self, List.map_cons, List.reverse_cons, List.append_assoc]
      refine ⟨rfl, fun hunique hd => ?_⟩
      rw [if_pos rfl] at hbetween
      rw [hids, hbetween] at hnodup
      exact hnodup hunique (List.nodup_cons.2 ⟨hfree rfl hunique, hd⟩)
    · rw [if_neg hname, List.nil_append, named_cons_of_ne hname]
      rw [if_neg hname, List.nil_append] at hbetween
      rw [hids, hbetween] at hnodup
      exact ⟨rfl, hnodup⟩

/-! ### Distinct ids -/

/-- The ids of a kind that asks for distinct ones are distinct if the document is read. -/
lemma nodup_of_witness {trace : Element} {w : Witness} (h : witness trace = .ok w)
    (hkind : kind ∈ uniqueKinds) :
    ((named kind trace.children).map (·.attribute? "id")).Nodup := by
  simp only [witness, bind_eq_ok_iff] at h
  obtain ⟨d, hd, found, hfound, -⟩ := h
  -- names in a table are checked when they are added, names of nodes when the states are read
  by_cases hdefines : kind ∈ definers
  · obtain ⟨hids, hnodup⟩ := ids_of_foldlM hd hdefines
    have hempty : ({} : Definitions).ids kind = [] := by
      unfold Definitions.ids
      split_ifs <;> rfl
    rw [hempty] at hids hnodup
    have hall := hnodup hkind List.nodup_nil
    rw [hids, List.append_nil, List.nodup_reverse] at hall
    rw [map_attribute?_eq (complete_of_foldlM hd) hdefines]
    exact hall.map (Option.some_injective _)
  · obtain rfl : kind = "node" := by
      simp only [uniqueKinds, definers, List.mem_cons, List.not_mem_nil, or_false] at hkind hdefines
      tauto
    obtain ⟨hstands, hnodup, -⟩ := states_eq_ok_iff.1 hfound
    have hids := map_attribute?_of_stands hstands
    rw [show named "node" trace.children = trace.childrenNamed "node" from rfl, hids]
    exact hnodup.map (Option.some_injective _)

/-! ### Hidden entries -/

/-- The same definitions, with some of clocks and processes that were made before them. -/
def Definitions.over (d : Definitions) (clocks processes : List (String × String)) : Definitions :=
  { d with clocks := d.clocks ++ clocks, processes := d.processes ++ processes }

/-- What was defined before does not matter to what a child adds. -/
lemma Definitions.add_over (d : Definitions) (clocks processes : List (String × String))
    (e : Element) :
    (d.over clocks processes).add e = (·.over clocks processes) <$> d.add e := by
  simp only [add, apply_ite (Functor.map fun d => Definitions.over d clocks processes), map_bind]
  rfl

lemma foldlM_add_over (cs : List Element) (d : Definitions)
    (clocks processes : List (String × String)) :
    cs.foldlM Definitions.add (d.over clocks processes) =
      (·.over clocks processes) <$> cs.foldlM Definitions.add d := by
  induction cs generalizing d with
  | nil => rfl
  | cons e cs ih =>
    rw [List.foldlM_cons, List.foldlM_cons, Definitions.add_over]
    cases d.add e with
    | error flaw => rfl
    | ok next => exact ih next

/-- An entry is hidden by another one with its key before it. -/
lemma lookup_hidden {β : Type} {table rest : List (String × β)} {key : String} {value : β}
    (h : key ∈ table.map (·.1)) (k : String) :
    (table ++ (key, value) :: rest).lookup k = (table ++ rest).lookup k := by
  rw [List.lookup_append, List.lookup_append]
  by_cases hk : k = key
  · subst hk
    obtain ⟨entry, hentry, rfl⟩ := List.mem_map.1 h
    obtain ⟨found, hfound⟩ := Option.isSome_iff_exists.1
      (List.lookup_isSome_iff.2 ⟨entry, hentry, beq_self_eq_true _⟩)
    rw [hfound, Option.some_or, Option.some_or]
  · rw [List.lookup_cons, beq_false_of_ne hk]

/-- Two definitions say the same of every id. -/
structure Definitions.Same (d d' : Definitions) : Prop where
  alike : d.Alike d'
  instances : d.instances = d'.instances

lemma Definitions.Same.of_lookup (hclocks : ∀ id, d.clocks.lookup id = d'.clocks.lookup id)
    (hprocesses : ∀ id, d.processes.lookup id = d'.processes.lookup id)
    (hlocations : d.locations = d'.locations) (hedges : d.edges = d'.edges)
    (hinstances : d.instances = d'.instances) : d.Same d' := by
  have hrefl {β : Type} {R : β → β → Prop} (hR : ∀ b, R b b) (o : Option β) : Option.Rel R o o := by
    cases o with
    | none => exact .none
    | some b => exact .some (hR b)
  refine ⟨⟨fun id => ?_, fun id => ?_, fun id => ?_, fun id => ?_, fun id => ?_⟩, hinstances⟩
  · exact hclocks id ▸ hrefl (fun _ => rfl) _
  · exact hprocesses id ▸ hrefl (fun _ => rfl) _
  · exact hlocations ▸ hrefl .refl _
  · exact hedges ▸ hrefl .refl _
  · exact hinstances ▸ hrefl .refl _

/-- Adding a clock or a process to those that are there, which does not matter below another one
with its id. -/
lemma Definitions.exists_add_eq_over (hkind : e.name ∈ ["clock", "process"])
    (hcomplete : Complete e) (d : Definitions) : ∃ clocks processes,
      d.add e = .ok ({ d with clocks := [], processes := [] }.over clocks processes) ∧
      ∀ above : Definitions, idOf e ∈ above.ids e.name →
        (above.over clocks processes).Same (above.over d.clocks d.processes) := by
  have hid := required_eq_ok_iff.2 (hcomplete.id
    (List.mem_append_left ["location", "edge", "dbm_instance"] hkind))
  have hname := required_eq_ok_iff.2 (hcomplete.name hkind)
  simp only [List.mem_cons, List.not_mem_nil, or_false] at hkind
  rcases hkind with hkind | hkind
  · refine ⟨(idOf e, clockOfName (nameOf e)) :: d.clocks, d.processes, ?_, fun above habove => ?_⟩
    · rw [add, if_pos hkind, hname, hid]
      rfl
    · rw [hkind] at habove
      exact .of_lookup (lookup_hidden habove) (fun _ => rfl) rfl rfl rfl
  · refine ⟨d.clocks, (idOf e, nameOf e) :: d.processes, ?_, fun above habove => ?_⟩
    · rw [add, if_neg (by simp [hkind]), if_pos hkind, hid, hname]
      rfl
    · rw [hkind] at habove
      exact .of_lookup (fun _ => rfl) (lookup_hidden habove) rfl rfl rfl

/-- Both are refused for the same reason, or they say the same of every id. -/
inductive SameOutcome : Except Flaw Definitions → Except Flaw Definitions → Prop
  | refused {flaw : Flaw} : SameOutcome (.error flaw) (.error flaw)
  | defined {d d' : Definitions} (h : d.Same d') : SameOutcome (.ok d) (.ok d')

/-- A clock or a process that another one with its id follows makes no difference. -/
lemma foldlM_hidden {after : List Element} {e' : Element} (hkind : e.name ∈ ["clock", "process"])
    (hcomplete : Complete e) (he' : e' ∈ after) (hname : e'.name = e.name) (hid : idOf e' = idOf e)
    (d : Definitions) : SameOutcome ((e :: after).foldlM Definitions.add d)
      (after.foldlM Definitions.add d) := by
  obtain ⟨clocks, processes, hadd, hsame⟩ := d.exists_add_eq_over hkind hcomplete
  -- the clocks and processes that are there already stand below those that are added
  have hbelow (clocks processes : List (String × String)) :=
    foldlM_add_over after { d with clocks := [], processes := [] } clocks processes
  have hwith : (e :: after).foldlM Definitions.add d =
      after.foldlM Definitions.add
        (Definitions.over { d with clocks := [], processes := [] } clocks processes) := by
    rw [List.foldlM_cons, hadd]
    rfl
  have hwithout : after.foldlM Definitions.add d = after.foldlM Definitions.add
      (Definitions.over { d with clocks := [], processes := [] } d.clocks d.processes) := rfl
  rw [hwith, hwithout, hbelow, hbelow]
  cases habove : after.foldlM Definitions.add { d with clocks := [], processes := [] } with
  | error flaw => exact .refused
  | ok above =>
    refine .defined (hsame above ?_)
    rw [(ids_of_foldlM habove (List.mem_append_left ["location", "edge", "dbm_instance"] hkind)).1,
      List.mem_append, List.mem_reverse, ← hid]
    exact .inl (List.mem_map_of_mem (mem_named.2 ⟨he', hname⟩))

/-! ### Reading -/

lemma differences_eq (h : d.Alike d') (es : List Element) :
    differences d es = differences d' es := by
  induction es with
  | nil => rfl
  | cons e es ih => rw [differences, differences, difference?_eq h, ih]

lemma state_eq (h : d.Same d') : state d = state d' := by
  funext node
  simp only [state, h.instances, differences_eq h.alike]

lemma states_eq (h : d.Same d') (known : List String) (nodes : List Element) :
    states d known nodes = states d' known nodes := by
  induction nodes generalizing known with
  | nil => rfl
  | cons node nodes ih => simp only [states, state_eq h, ih]

lemma move_eq (h : d.Same d') : move d = move d' := by
  funext nodes transition
  simp only [move, edge_eq h.alike]

section Traces

variable {text : String} {root trace : Element} {before after : List Element} {e' : Element}

lemma witness_eq_of_hidden {trace' : Element} (hchildren : trace.children = before ++ e :: after)
    (hchildren' : trace'.children = before ++ after) (hkind : e.name ∈ ["clock", "process"])
    (hcomplete : Complete e) (he' : e' ∈ after) (hname : e'.name = e.name)
    (hid : idOf e' = idOf e) : witness trace = witness trace' := by
  have hnamed {name : String} (h : name ∉ ["clock", "process"]) :
      trace.childrenNamed name = trace'.childrenNamed name := by
    show named name trace.children = named name trace'.children
    rw [hchildren, hchildren', named_append, named_append, named_cons_of_ne]
    exact fun heq => h (heq ▸ hkind)
  have hdefinitions : SameOutcome (definitions trace) (definitions trace') := by
    rw [definitions, definitions, hchildren, hchildren', List.foldlM_append, List.foldlM_append]
    cases before.foldlM Definitions.add {} with
    | error flaw => exact .refused
    | ok d => exact foldlM_hidden hkind hcomplete he' hname hid d
  rw [witness, witness, hnamed (by decide), hnamed (by decide)]
  generalize definitions trace = out, definitions trace' = out' at hdefinitions
  cases hdefinitions with
  | refused => rfl
  | defined h => simp only [bind, Except.bind, states_eq h, move_eq h]

/-- A document that is not read is malformed. -/
lemma traceOfText_of_error {flaw : Flaw} (hroot : Markup.read text = .ok root)
    (htrace : traceElement root = .ok trace) (h : witness trace = .error flaw)
    (clock path : String) :
    Extraction.traceOfText .xml clock path text = .error (.malformed path flaw) := by
  have hread : Witness.read .xml text = .error flaw := (read_eq_witness hroot htrace).trans h
  rw [Extraction.traceOfText, hread]
  rfl

/-- An id that is repeated within its kind is not distinct. -/
lemma not_nodup_of_repeated (hchildren : trace.children = before ++ e :: after) (he' : e' ∈ after)
    (hname : e'.name = e.name) (hid : e'.attribute? "id" = e.attribute? "id") :
    ¬ ((named e.name trace.children).map (·.attribute? "id")).Nodup := by
  rw [hchildren, named_append, named_cons_self, List.map_append, List.map_cons]
  intro h
  refine (List.nodup_cons.1 h.of_append_right).1 ?_
  rw [← hid]
  exact List.mem_map_of_mem (mem_named.2 ⟨he', hname⟩)

/-- Of two children of one kind with one id, a location, an edge, an instance or a node makes the
document malformed. A clock or a process makes it malformed only if the first one has no name; else
the document gives what it gives without the first one. -/
theorem traceOfText_repeated {id : String} (hroot : Markup.read text = .ok root)
    (htrace : traceElement root = .ok trace) (hchildren : trace.children = before ++ e :: after)
    (he' : e' ∈ after) (hname : e'.name = e.name) (hid : e.attribute? "id" = some id)
    (hid' : e'.attribute? "id" = some id) (clock path : String) :
    (e.name ∈ ["location", "edge", "dbm_instance", "node"] →
      ∃ flaw, Extraction.traceOfText .xml clock path text = .error (.malformed path flaw)) ∧
    (e.name ∈ ["clock", "process"] →
      (e.attribute? "name" = none →
        ∃ flaw, Extraction.traceOfText .xml clock path text = .error (.malformed path flaw)) ∧
      ∀ name, e.attribute? "name" = some name → ∀ text' root' trace',
        Markup.read text' = .ok root' → traceElement root' = .ok trace' →
        trace'.children = before ++ after →
          Extraction.traceOfText .xml clock path text =
            Extraction.traceOfText .xml clock path text') := by
  refine ⟨fun hkind => ?_, fun hkind => ⟨fun hnone => ?_, ?_⟩⟩
  · cases hwitness : witness trace with
    | error flaw => exact ⟨flaw, traceOfText_of_error hroot htrace hwitness clock path⟩
    | ok w =>
      exact absurd (nodup_of_witness hwitness hkind)
        (not_nodup_of_repeated hchildren he' hname (hid'.trans hid.symm))
  · cases hwitness : witness trace with
    | error flaw => exact ⟨flaw, traceOfText_of_error hroot htrace hwitness clock path⟩
    | ok w =>
      obtain ⟨d, hd, -⟩ := bind_eq_ok_iff.1 hwitness
      have hmem : e ∈ trace.children := hchildren ▸ List.mem_append_right _ List.mem_cons_self
      cases hnone.symm.trans ((complete_of_foldlM hd e hmem).name hkind)
  · -- the later definition hides this one, so the trace can do without it
    intro name hname' text' root' trace' hroot' htrace' hchildren'
    have hcomplete : Complete e := by
      refine ⟨fun _ => ?_, fun _ => ?_⟩
      · rw [idOf, hid, Option.getD_some]
      · rw [nameOf, hname', Option.getD_some]
    have hids : idOf e' = idOf e := by
      rw [idOf, idOf, hid, hid']
    have hread : Witness.read .xml text = Witness.read .xml text' :=
      (read_eq_witness hroot htrace).trans <|
        (witness_eq_of_hidden hchildren hchildren' hkind hcomplete he' hname hids).trans
          (read_eq_witness hroot' htrace').symm
    rw [Extraction.traceOfText, Extraction.traceOfText, hread]

end Traces

namespace Sample

/-- The clock that the bounds are about has another name. -/
def otherClock : Element := ⟨"clock", [("id", "c1"), ("name", "y")], []⟩

/-- The first location is another one. -/
def otherLocation : Element := ⟨"location", [("id", "l0"), ("name", "other")], []⟩

/-- The trace of one step, with another definition at its end. -/
def repeated (e : Element) : Element := ⟨"trace", [], children sentBounds ++ [e]⟩

def replaced : Element := ⟨"trace", [], (children sentBounds).eraseIdx 1 ++ [otherClock]⟩

lemma named_repeated (h : e.Named) : (repeated e).Named :=
  ⟨rfl, rfl, List.forall_mem_append.2
    ⟨named_children named_sentBounds, List.forall_mem_singleton.2 h⟩⟩

lemma named_replaced : replaced.Named :=
  ⟨rfl, rfl, List.forall_mem_append.2
    ⟨fun e he => named_children named_sentBounds e (List.mem_of_mem_eraseIdx he),
      List.forall_mem_singleton.2 ⟨rfl, rfl, nofun⟩⟩⟩

lemma read_repeated_clock : Markup.read (String.ofList (repeated otherClock).chars) =
    .ok (repeated otherClock) :=
  Markup.read_chars (named_repeated ⟨rfl, rfl, nofun⟩)

lemma read_repeated_location : Markup.read (String.ofList (repeated otherLocation).chars) =
    .ok (repeated otherLocation) :=
  Markup.read_chars (named_repeated ⟨rfl, rfl, nofun⟩)

/-- One child and the ones before and behind it. -/
lemma children_repeated (e : Element) (n : ℕ) (h : n < (children sentBounds).length) :
    (repeated e).children = (children sentBounds).take n ++
      (children sentBounds)[n] :: ((children sentBounds).drop (n + 1) ++ [e]) := by
  rw [← List.cons_append, List.getElem_cons_drop, ← List.append_assoc, List.take_append_drop]
  rfl

end Sample

/-- A clock that is defined twice is only the second one, so that the step has no bounds against
the first one; a location that is defined twice makes the document malformed. -/
theorem traceOfText_repeated_sample :
    Extraction.traceOfText .xml "x" "run"
      (String.ofList (Sample.repeated Sample.otherClock).chars) =
        Extraction.traceOfText .xml "x" "run" (String.ofList Sample.replaced.chars) ∧
    ∃ flaw, Extraction.traceOfText .xml "x" "run"
      (String.ofList (Sample.repeated Sample.otherLocation).chars) =
        .error (.malformed "run" flaw) := by
  have hlast (cs : List Element) (e : Element) : e ∈ cs ++ [e] := List.mem_concat_self
  constructor
  · exact ((traceOfText_repeated Sample.read_repeated_clock rfl
      (Sample.children_repeated _ 1 (by decide)) (hlast _ _) rfl rfl rfl "x" "run").2
        (by decide)).2 "x" rfl _ _ _ (Markup.read_chars Sample.named_replaced) rfl rfl
  · exact (traceOfText_repeated Sample.read_repeated_location rfl
      (Sample.children_repeated _ 3 (by decide)) (hlast _ _) rfl rfl rfl "x" "run").1 (by decide)

/-- A document that defines a clock twice is not malformed. -/
theorem not_traceOfText_repeated : ¬ ∀ (text : String) (root trace e e' : Element)
    (before after : List Element) (id clock path : String), Markup.read text = .ok root →
    traceElement root = .ok trace → trace.children = before ++ e :: after → e' ∈ after →
    e'.name = e.name → e.attribute? "id" = some id → e'.attribute? "id" = some id →
    e.name ∈ kinds →
      ∃ flaw, Extraction.traceOfText .xml clock path text = .error (.malformed path flaw) := by
  intro h
  obtain ⟨flaw, hflaw⟩ := h _ _ _ _ Sample.otherClock [_] _ "c1" "x" "run"
    Sample.read_repeated_clock rfl rfl List.mem_concat_self rfl rfl rfl (by decide)
  have hread : Witness.read .xml (String.ofList (Sample.repeated Sample.otherClock).chars) =
      witness (Sample.repeated Sample.otherClock) := read_eq_witness Sample.read_repeated_clock rfl
  rw [Extraction.traceOfText, hread] at hflaw
  cases hflaw

end TimedPatterns.Document
