import TimedPatterns.Proofs.Witness.Blocks
import TimedPatterns.Proofs.Witness.Repetition

/-!
# References in witnesses

What a witness refers to is there. The moves of a witness that has been read lead to states of it,
so the flaw of a missing state is never met when its trace is made. In a listing, a state has been
opened before each move, and another one before the next move: the targets of the moves increase,
and none of them is the first state.

In a document, what is referred to under an id is defined under it in the same trace: the node that
a transition leads to, its edges and their locations, the instance of a node and the clocks of its
finite bounds.
-/

namespace TimedPatterns

/-! ### Listings -/

namespace Listing

variable {due : Bool} {n : Nat} {bs : List Block} {states : List SymbolicState} {moves : List Move}

/-- The targets of the moves in blocks of which the first state has the position `n`. -/
lemma Continues.targets (h : Continues due n bs states moves) :
    (due = true → states ≠ []) ∧ (moves.map (·.target)).Pairwise (· < ·) ∧
      ∀ m ∈ moves, n ≤ m.target ∧ (due = true → n < m.target) ∧ m.target < n + states.length := by
  induction h with
  | done => simp
  | state hb hs rest ih =>
    obtain ⟨-, hpairwise, htargets⟩ := ih
    refine ⟨fun _ => List.cons_ne_nil _ _, hpairwise, fun m hm => ?_⟩
    obtain ⟨hle, -, hlt⟩ := htargets m hm
    rw [List.length_cons]
    omega
  | move hb hes rest ih =>
    -- a state is due, and all moves behind it lead further
    obtain ⟨hstates, hpairwise, htargets⟩ := ih
    have hlength := List.length_pos_of_ne_nil (hstates rfl)
    refine ⟨nofun, ?_, List.forall_mem_cons.2 ⟨?_, fun m hm => ?_⟩⟩
    · rw [List.map_cons, List.pairwise_cons, List.forall_mem_map]
      exact ⟨fun m hm => (htargets m hm).2.1 rfl, hpairwise⟩
    · exact ⟨le_rfl, nofun, Nat.lt_add_of_pos_right hlength⟩
    · exact ⟨(htargets m hm).1, nofun, (htargets m hm).2.2⟩

/-- The targets of the moves of a listing. -/
lemma targets_of_read {text : String} {w : Witness} (h : read text = .ok w) :
    (w.moves.map (·.target)).Pairwise (· < ·) ∧
      ∀ m ∈ w.moves, 1 ≤ m.target ∧ m.target < w.states.length := by
  obtain ⟨-, hpairwise, htargets⟩ := (read_eq_ok_iff_continues.1 h).targets
  refine ⟨hpairwise, fun m hm => ?_⟩
  obtain ⟨-, hpos, hlt⟩ := htargets m hm
  exact ⟨hpos rfl, by rwa [Nat.zero_add] at hlt⟩

end Listing

/-! ### Documents -/

namespace Document

variable {d : Definitions} {cs : List Element} {e t node : Element} {kind id : String}

/-- One of the children has this kind and this id. -/
def Defined (cs : List Element) (kind id : String) : Prop :=
  ∃ e ∈ named kind cs, e.attribute? "id" = some id

/-- An attribute of an element refers to a child of a kind. -/
def Refers (cs : List Element) (kind : String) (e : Element) (field : String) : Prop :=
  ∃ id, e.attribute? field = some id ∧ Defined cs kind id

/-- The bound of a constraint is infinite. -/
def IsInfinite (e : Element) : Prop :=
  ∃ text, e.attribute? "bound" = some text ∧ Text.trim text ∈ ["inf", "INF", "infinity"]

/-- All that the children of a trace refer to is defined by one of them. -/
structure Resolved (cs : List Element) : Prop where
  node : ∀ t ∈ named "transition" cs, Refers cs "node" t "to"
  edge : ∀ t ∈ named "transition" cs, ∀ id ∈ Text.words ((t.attribute? "edges").getD ""),
    Defined cs "edge" id
  location : ∀ t ∈ named "transition" cs, ∀ id ∈ Text.words ((t.attribute? "edges").getD ""),
    ∀ e ∈ named "edge" cs, e.attribute? "id" = some id →
      Refers cs "location" e "from" ∧ Refers cs "location" e "to"
  bounds : ∀ node ∈ named "node" cs, ∀ id, node.attribute? "dbm_instance" = some id →
    Defined cs "dbm_instance" id
  clock : ∀ node ∈ named "node" cs, ∀ id, node.attribute? "dbm_instance" = some id →
    ∀ e ∈ named "dbm_instance" cs, e.attribute? "id" = some id →
      ∀ bound ∈ e.childrenNamed "clockbound", ¬ IsInfinite bound →
        Refers cs "clock" bound "clock1" ∧ Refers cs "clock" bound "clock2"

/-- What is defined if no child is refused, also where ids are repeated. -/
lemma eq_defined_of_foldlM (h : cs.foldlM Definitions.add {} = .ok d) : d = defined cs := by
  induction cs using List.reverseRecOn generalizing d with
  | nil =>
    cases h
    rfl
  | append_singleton cs e ih =>
    rw [List.foldlM_append, bind_eq_ok_iff] at h
    obtain ⟨before, hbefore, hadd⟩ := h
    obtain rfl := ih hbefore
    rw [List.foldlM_cons, bind_eq_ok_iff] at hadd
    obtain ⟨_, hadd, ⟨⟩⟩ := hadd
    cases Definitions.Adds.of_add hadd with
    | clock hname | process hname | location hname | edge hname | bounds hname =>
      simp [defined, reverse_map_named_concat, hname]
    | nothing hname =>
      simp only [definers, List.mem_cons, List.not_mem_nil, or_false, not_or] at hname
      simp [defined, reverse_map_named_concat, hname]

lemma refer_eq_ok_iff {β : Type} {table : List (String × β)} {value : β} :
    refer kind table id = .ok value ↔ table.lookup id = some value := by
  rw [refer]
  cases table.lookup id <;> simp

/-- What is found in a table of children has been defined by one of them. -/
lemma exists_of_refer {β : Type} {what : String} {entry : Element → β} {value : β}
    (h : refer what ((named kind cs).map fun e => (idOf e, entry e)).reverse id = .ok value) :
    ∃ e ∈ named kind cs, idOf e = id ∧ entry e = value := by
  obtain ⟨before, after, htable, -⟩ := List.lookup_eq_some_iff.1 (refer_eq_ok_iff.1 h)
  have hmem := htable ▸ List.mem_append_right before List.mem_cons_self
  obtain ⟨e, he, heq⟩ := List.mem_map.1 (List.mem_reverse.1 hmem)
  obtain ⟨rfl, rfl⟩ := Prod.mk.inj heq
  exact ⟨e, he, rfl, rfl⟩

lemma trim_mem_of_bound? {text : String} (h : bound? text = .ok none) :
    Text.trim text ∈ ["inf", "INF", "infinity"] := by
  rw [bound?] at h
  split_ifs at h with hinfinite
  · simpa using hinfinite
  · split at h <;> cases h

/-! ### Definitions of what is referred to -/

section Reading

variable (hcomplete : ∀ e ∈ cs, Complete e)

include hcomplete

lemma attribute?_of_mem_named (hkind : kind ∈ definers) (he : e ∈ named kind cs) :
    e.attribute? "id" = some (idOf e) := by
  obtain ⟨hmem, rfl⟩ := mem_named.1 he
  exact (hcomplete e hmem).id hkind

lemma defined_of_refer {β : Type} {what : String} {entry : Element → β} {value : β}
    (hkind : kind ∈ definers)
    (h : refer what ((named kind cs).map fun e => (idOf e, entry e)).reverse id = .ok value) :
    Defined cs kind id := by
  obtain ⟨e, he, rfl, -⟩ := exists_of_refer h
  exact ⟨e, he, attribute?_of_mem_named hcomplete hkind he⟩

/-- If ids are distinct, an id is looked up as the only child that has it. -/
lemma eq_of_refer {what : String} (hkind : kind ∈ definers)
    (hnodup : ((named kind cs).map (·.attribute? "id")).Nodup) {found : Element}
    (h : refer what ((named kind cs).map fun e => (idOf e, e)).reverse id = .ok found)
    (he : e ∈ named kind cs) (hid : e.attribute? "id" = some id) : e = found := by
  obtain ⟨_, hfound, rfl, rfl⟩ := exists_of_refer h
  refine List.inj_on_of_nodup_map hnodup he hfound ?_
  rw [hid, attribute?_of_mem_named hcomplete hkind hfound]

/-- The clocks of a bound that is not infinite. -/
lemma refers_of_difference? {o : Option Difference} (h : difference? (defined cs) e = .ok o)
    (hfinite : ¬ IsInfinite e) : Refers cs "clock" e "clock1" ∧ Refers cs "clock" e "clock2" := by
  rw [difference?, bind_eq_ok_iff] at h
  obtain ⟨text, htext, h⟩ := h
  rw [bind_eq_ok_iff] at h
  obtain ⟨_ | bound, hbound, h⟩ := h
  · exact absurd ⟨text, required_eq_ok_iff.1 htext, trim_mem_of_bound? hbound⟩ hfinite
  · simp only [bind_eq_ok_iff] at h
    obtain ⟨-, -, id, hid, left, hleft, id', hid', right, hright, -⟩ := h
    exact ⟨⟨id, required_eq_ok_iff.1 hid, defined_of_refer hcomplete (by decide) hleft⟩,
      ⟨id', required_eq_ok_iff.1 hid', defined_of_refer hcomplete (by decide) hright⟩⟩

/-- The instance of a node. -/
lemma refers_of_state {s : SymbolicState}
    (hnodup : ((named "dbm_instance" cs).map (·.attribute? "id")).Nodup)
    (h : state (defined cs) node = .ok s) (hid : node.attribute? "dbm_instance" = some id) :
    Defined cs "dbm_instance" id ∧
      ∀ e ∈ named "dbm_instance" cs, e.attribute? "id" = some id →
        ∀ bound ∈ e.childrenNamed "clockbound", ¬ IsInfinite bound →
          Refers cs "clock" bound "clock1" ∧ Refers cs "clock" bound "clock2" := by
  simp only [state, hid, bind_eq_ok_iff] at h
  obtain ⟨found, hfound, ds, hds, -⟩ := h
  refine ⟨defined_of_refer hcomplete (by decide) hfound, fun e he heid bound hbound => ?_⟩
  obtain rfl := eq_of_refer hcomplete (by decide) hnodup hfound he heid
  obtain ⟨os, hos, -⟩ := differences_eq_ok_iff.1 hds
  obtain ⟨o, -, ho⟩ := exists_of_forall₂_left hos hbound
  exact refers_of_difference? hcomplete ho

/-- An edge and its locations. -/
lemma refers_of_edge {w : WitnessEdge}
    (hnodup : ((named "edge" cs).map (·.attribute? "id")).Nodup)
    (h : edge (defined cs) id = .ok w) :
    Defined cs "edge" id ∧ ∀ e ∈ named "edge" cs, e.attribute? "id" = some id →
      Refers cs "location" e "from" ∧ Refers cs "location" e "to" := by
  simp only [edge, locationName, bind_eq_ok_iff] at h
  obtain ⟨found, hfound, source, hsource, p, ⟨l, hl, -⟩, target, htarget, p', ⟨l', hl', -⟩, -⟩ := h
  refine ⟨defined_of_refer hcomplete (by decide) hfound, fun e he heid => ?_⟩
  obtain rfl := eq_of_refer hcomplete (by decide) hnodup hfound he heid
  exact ⟨⟨source, required_eq_ok_iff.1 hsource, defined_of_refer hcomplete (by decide) hl⟩,
    ⟨target, required_eq_ok_iff.1 htarget, defined_of_refer hcomplete (by decide) hl'⟩⟩

end Reading

/-! ### Moves -/

lemma move_eq_ok_iff {nodes : List String} {m : Move} : move d nodes t = .ok m ↔
    ∃ target, t.attribute? "to" = some target ∧ nodes.idxOf? target = some m.target ∧
      List.Forall₂ (fun id e => edge d id = .ok e) (Text.words ((t.attribute? "edges").getD ""))
        m.edges := by
  rw [move, bind_eq_ok_iff]
  constructor
  · rintro ⟨target, htarget, h⟩
    cases hposition : nodes.idxOf? target with
    | none =>
      rw [hposition] at h
      cases h
    | some position =>
      rw [hposition] at h
      obtain ⟨edges, hedges, ⟨⟩⟩ := bind_eq_ok_iff.1 h
      exact ⟨target, required_eq_ok_iff.1 htarget, hposition, mapM_eq_ok_iff.1 hedges⟩
  · rintro ⟨target, htarget, hposition, hedges⟩
    refine ⟨target, required_eq_ok_iff.2 htarget, ?_⟩
    rw [hposition]
    exact bind_eq_ok_iff.2 ⟨m.edges, mapM_eq_ok_iff.2 hedges, rfl⟩

/-- All that a witness that has been read refers to is defined in its trace, and its moves lead to
states of it. -/
lemma resolved_of_witness {trace : Element} {w : Witness} (h : witness trace = .ok w) :
    Resolved trace.children ∧ ∀ m ∈ w.moves, m.target < w.states.length := by
  have hnodup {kind : String} (hkind : kind ∈ uniqueKinds) := nodup_of_witness h hkind
  simp only [witness, bind_eq_ok_iff] at h
  obtain ⟨d, hd, found, hfound, moves, hmoves, ⟨⟩⟩ := h
  have hcomplete := complete_of_foldlM hd
  obtain rfl := eq_defined_of_foldlM hd
  obtain ⟨hstands, -, -⟩ := states_eq_ok_iff.1 hfound
  have hmoves := mapM_eq_ok_iff.1 hmoves
  -- every node and every transition was read, and with it what it refers to
  have hnode (node : Element) (h : node ∈ named "node" trace.children) :
      ∃ s, state (defined trace.children) node = .ok s := by
    obtain ⟨p, -, -, hs⟩ := exists_of_forall₂_left hstands h
    exact ⟨p.2, hs⟩
  have hmove (t : Element) (h : t ∈ named "transition" trace.children) :
      ∃ m, move (defined trace.children) (found.map (·.1)) t = .ok m := by
    obtain ⟨m, -, hm⟩ := exists_of_forall₂_left hmoves h
    exact ⟨m, hm⟩
  have hedge (t : Element) (h : t ∈ named "transition" trace.children) (id : String)
      (hid : id ∈ Text.words ((t.attribute? "edges").getD "")) :
      ∃ e, edge (defined trace.children) id = .ok e := by
    obtain ⟨m, hm⟩ := hmove t h
    obtain ⟨-, -, -, hedges⟩ := move_eq_ok_iff.1 hm
    obtain ⟨e, -, he⟩ := exists_of_forall₂_left hedges hid
    exact ⟨e, he⟩
  refine ⟨⟨fun t ht => ?_, fun t ht id hid => ?_, fun t ht id hid => ?_, fun node hmem id hid => ?_,
    fun node hmem id hid => ?_⟩, fun m hm => ?_⟩
  · obtain ⟨m, hm⟩ := hmove t ht
    obtain ⟨target, htarget, hposition, -⟩ := move_eq_ok_iff.1 hm
    obtain ⟨hlt, hget, -⟩ := List.idxOf?_eq_some_iff.1 hposition
    have hmem : some target ∈ (named "node" trace.children).map (·.attribute? "id") := by
      have hids := map_attribute?_of_stands hstands
      rw [show named "node" trace.children = trace.childrenNamed "node" from rfl, hids, ← hget]
      exact List.mem_map_of_mem (List.getElem_mem hlt)
    obtain ⟨node, hnode, hid⟩ := List.mem_map.1 hmem
    exact ⟨target, htarget, node, hnode, hid⟩
  · obtain ⟨e, he⟩ := hedge t ht id hid
    exact (refers_of_edge hcomplete (hnodup (by decide)) he).1
  · obtain ⟨e, he⟩ := hedge t ht id hid
    exact (refers_of_edge hcomplete (hnodup (by decide)) he).2
  · obtain ⟨s, hs⟩ := hnode node hmem
    exact (refers_of_state hcomplete (hnodup (by decide)) hs hid).1
  · obtain ⟨s, hs⟩ := hnode node hmem
    exact (refers_of_state hcomplete (hnodup (by decide)) hs hid).2
  · obtain ⟨t, -, hm⟩ := exists_of_forall₂_left hmoves.flip hm
    obtain ⟨target, -, hposition, -⟩ := move_eq_ok_iff.1 hm
    obtain ⟨hlt, -, -⟩ := List.idxOf?_eq_some_iff.1 hposition
    rwa [List.length_map] at hlt ⊢

/-- A document that is read has a trace, of which it is the witness. -/
lemma read_eq_ok_iff {text : String} {w : Witness} : read text = .ok w ↔
    ∃ root trace, Markup.read text = .ok root ∧ traceElement root = .ok trace ∧
      witness trace = .ok w := by
  constructor
  · intro h
    rw [read] at h
    cases hroot : Markup.read text with
    | error position =>
      rw [hroot] at h
      cases h
    | ok root =>
      rw [hroot] at h
      obtain ⟨trace, htrace, hw⟩ := bind_eq_ok_iff.1 h
      exact ⟨root, trace, rfl, htrace, hw⟩
  · rintro ⟨root, trace, hroot, htrace, hw⟩
    rw [read_eq_witness hroot htrace, hw]

end Document

/-! ### Traces -/

lemma SymbolicState.interval_error {s : SymbolicState} {clock : String} {flaw : Flaw}
    (h : s.interval clock = .error flaw) : flaw = .lowerOutOfRange Text.minSigned clock := by
  have hall (ds : List Difference) (i : ClockInterval) :
      ds.foldlM (Difference.narrow clock) i = .error flaw →
        flaw = .lowerOutOfRange Text.minSigned clock := by
    induction ds generalizing i with
    | nil => exact nofun
    | cons d ds ih =>
      rw [List.foldlM_cons, bind_eq_error_iff]
      rintro (hd | ⟨j, -, hds⟩)
      · rcases d.narrow_cases clock with ⟨k, h⟩ | ⟨k, h⟩ | h | h <;> rw [h] at hd <;> cases hd
        rfl
      · exact ih j hds
  exact hall s.differences .full h

namespace Witness

variable {w : Witness} {clock text : String} {flaw : Flaw} {m : Move} {format : WitnessFormat}

/-- The only flaw of a move to a state that is there. -/
lemma transition?_error (hm : m.target < w.states.length)
    (h : w.transition? clock m = .error flaw) : flaw = .lowerOutOfRange Text.minSigned clock := by
  rw [transition?, List.getElem?_eq_getElem hm] at h
  dsimp only at h
  cases haction : actionOf m.edges with
  | none =>
    rw [haction] at h
    cases h
  | some action =>
    rw [haction] at h
    rcases bind_eq_error_iff.1 h with h | ⟨i, -, ⟨⟩⟩
    exact SymbolicState.interval_error h

lemma transitions_error {ms : List Move} (hms : ∀ m ∈ ms, m.target < w.states.length)
    (h : w.transitions clock ms = .error flaw) :
    flaw = .lowerOutOfRange Text.minSigned clock := by
  induction ms with
  | nil => cases h
  | cons m ms ih =>
    obtain ⟨hm, hms⟩ := List.forall_mem_cons.1 hms
    rw [transitions, bind_eq_error_iff] at h
    rcases h with h | ⟨first, -, h⟩
    · exact transition?_error hm h
    · rcases bind_eq_error_iff.1 h with h | ⟨rest, -, ⟨⟩⟩
      exact ih hms h

/-- No state is missing if all moves lead to states that are there. -/
lemma trace_ne_missingState (hmoves : ∀ m ∈ w.moves, m.target < w.states.length) (clock : String)
    (index : Nat) : w.trace clock ≠ .error (.missingState index) := by
  intro h
  rw [trace] at h
  split_ifs at h
  · cases h
  · rcases bind_eq_error_iff.1 h with htransitions | ⟨transitions, -, horder⟩
    · cases transitions_error hmoves htransitions
    · cases horder' : Trace.ofTransitions clock transitions with
      | error error =>
        rw [horder'] at horder
        cases horder
      | ok t =>
        rw [horder'] at horder
        cases horder

/-- A witness that has been read has no move to a missing state, and its trace never fails for want
of one. The moves of a listing lead further and further, and never to the first state. All that a
document refers to is defined in its trace. -/
theorem read_resolved (h : read format text = .ok w) :
    (∀ m ∈ w.moves, m.target < w.states.length) ∧
    (∀ clock index, w.trace clock ≠ .error (.missingState index)) ∧
    (format = .xtr → (w.moves.map (·.target)).Pairwise (· < ·) ∧ ∀ m ∈ w.moves, 1 ≤ m.target) ∧
    (format = .xml → ∃ root trace, Markup.read text = .ok root ∧
      Document.traceElement root = .ok trace ∧ Document.Resolved trace.children) := by
  cases format with
  | xtr =>
    obtain ⟨hpairwise, htargets⟩ := Listing.targets_of_read h
    have hlt := fun m hm => (htargets m hm).2
    exact ⟨hlt, trace_ne_missingState hlt, fun _ => ⟨hpairwise, fun m hm => (htargets m hm).1⟩,
      nofun⟩
  | xml =>
    obtain ⟨root, trace, hroot, htrace, hw⟩ := Document.read_eq_ok_iff.1 h
    obtain ⟨hresolved, hlt⟩ := Document.resolved_of_witness hw
    exact ⟨hlt, trace_ne_missingState hlt, nofun, fun _ => ⟨root, trace, hroot, htrace, hresolved⟩⟩

/-- A listing of two moves, of which the second one has no edges. -/
def twoMoves : String :=
  "State:\n( P.a )\nTransitions:\n  P.a->P.b \x7b 1, send!, 1 \x7d\nState:\n( P.b )\n" ++
    "Transitions:\nState:\n( P.b )\n"

theorem read_resolved_sample :
    Witness.read .xtr twoMoves =
      .ok ⟨[⟨[]⟩, ⟨[]⟩, ⟨[]⟩], [⟨[⟨"P", "a", "b", some "send!"⟩], 1⟩, ⟨[], 2⟩]⟩ ∧
    [1, 2].Pairwise (· < ·) ∧ Document.Resolved Document.Sample.trace.children := by
  have hlisting : Witness.read .xtr twoMoves =
      .ok ⟨[⟨[]⟩, ⟨[]⟩, ⟨[]⟩], [⟨[⟨"P", "a", "b", some "send!"⟩], 1⟩, ⟨[], 2⟩]⟩ := by
    decide +kernel
  have hroot := Markup.read_chars Document.Sample.named_trace
  obtain ⟨w, hw⟩ : ∃ w, Document.witness Document.Sample.trace = .ok w := ⟨_, rfl⟩
  have hdocument : Witness.read .xml (String.ofList Document.Sample.trace.chars) = .ok w :=
    (Document.read_eq_witness hroot rfl).trans hw
  obtain ⟨-, -, htargets, -⟩ := read_resolved hlisting
  obtain ⟨-, -, -, hresolved⟩ := read_resolved hdocument
  obtain ⟨root, trace, hroot', htrace, hall⟩ := hresolved rfl
  obtain rfl : Document.Sample.trace = root := Except.ok.inj (hroot.symm.trans hroot')
  obtain rfl : Document.Sample.trace = trace := Except.ok.inj htrace
  exact ⟨hlisting, (htargets rfl).1, hall⟩

end Witness

end TimedPatterns
