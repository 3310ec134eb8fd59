import TimedPatterns.Proofs.Witness.Picking

/-!
# Edges and delays of a listing

Each line of a block of transitions that has the form of an edge gives its edge to the move, in
order, unless the name of its process begins with `Delay`. Such a line is passed over like a delay,
and its edge is lost. So a move has all the edges of its block exactly if no process in it has such
a name.
-/

namespace TimedPatterns.Listing

/-! ### Lines of edges -/

variable {line : List Char} {lines : List (List Char)} {e : WitnessEdge} {es : List WitnessEdge}

/-- The name of the process of the edge begins like a delay. -/
def IsDelayed (e : WitnessEdge) : Prop := "Delay".toList <+: e.process.toList

instance (e : WitnessEdge) : Decidable (IsDelayed e) :=
  inferInstanceAs (Decidable ("Delay".toList <+: e.process.toList))

/-- The line of an edge begins with the name of its process. -/
lemma IsEdge.delay_isPrefix_iff (h : IsEdge line e) :
    "Delay".toList <+: line ↔ IsDelayed e := by
  obtain ⟨-, -, -, blanks, body, -, -, rfl, -⟩ := h
  rw [List.append_cons]
  constructor
  · intro hdelay
    -- of two beginnings of a line, one is a beginning of the other
    have hpoint : '.' ∉ "Delay".toList := by decide
    rcases List.prefix_or_prefix_of_prefix hdelay (List.prefix_append _ _) with h | h
    · rcases List.prefix_concat_iff.1 h with heq | h
      · exact absurd (heq ▸ List.mem_concat_self) hpoint
      · exact h
    · exact absurd (h.subset List.mem_concat_self) hpoint
  · exact fun h => (h.trans (List.prefix_append _ _)).trans (List.prefix_append _ _)

/-- Of the lines of a block, those of edges are taken unless they begin like a delay. -/
lemma picks_edgeLines (h : List.Forall₂ IsEdge (edgeLines lines) es) :
    Picks (fun line e => IsEdge line e ∧ ¬ "Delay".toList <+: line) lines es :=
  (Picks.of_filter h).congr fun line _ e => by rw [decide_eq_true_eq]

/-- The lines of edges begin like a delay exactly if their process is named like one. -/
lemma picks_edges (h : List.Forall₂ IsEdge (edgeLines lines) es) :
    Picks (fun line e => IsEdge line e ∧ ¬ IsDelayed e) lines es :=
  (picks_edgeLines h).congr fun line _ e => by
    refine and_congr_right fun he => ?_
    rw [he.delay_isPrefix_iff]

/-- All edges are taken exactly if no process is named like a delay. -/
lemma picks_isEdge_iff (h : List.Forall₂ IsEdge (edgeLines lines) es) :
    Picks IsEdge lines es ↔ ∀ line ∈ lines, ∀ e, IsEdge line e → ¬ IsDelayed e := by
  rw [(picks_edgeLines h).iff_forall]
  refine forall₂_congr fun line _ => forall₂_congr fun e he => ?_
  rw [he.delay_isPrefix_iff]

/-- A move has an edge for each line of its block that has the form of one, in order, but for the
processes whose names begin with `Delay`. So it has all of them exactly if there is no such
process. -/
theorem read_takes_edges {text : String} {w : Witness} (h : read text = .ok w) :
    List.Forall₂ (fun b m =>
      Picks (fun line e => IsEdge line e ∧ ¬ IsDelayed e) b.lines m.edges ∧
        (Picks IsEdge b.lines m.edges ↔
          ∀ line ∈ b.lines, ∀ e, IsEdge line e → ¬ IsDelayed e))
      ((blocks (linesOf text)).filter (·.heading = .transitions)) w.moves :=
  (read_eq_ok_iff_continues.1 h).forall₂_moves.imp fun _ _ hedges =>
    ⟨picks_edges hedges, picks_isEdge_iff hedges⟩

deriving instance DecidableEq for Block

namespace Sample

def steps : List (List Char) :=
  ["Delay: 3".toList, "P.a->P.b\x7bgo?\x7d".toList, "DelayP.a->DelayP.b\x7bgo!\x7d".toList]

def listing : String :=
  "State:\nTransitions:\nDelay: 3\nP.a->P.b\x7bgo?\x7d\nDelayP.a->DelayP.b\x7bgo!\x7d\nState:\n"

def listed : Witness := ⟨[⟨[]⟩, ⟨[]⟩], [⟨[⟨"P", "a", "b", some "go?"⟩], 1⟩]⟩

lemma read_listing : read listing = .ok listed := by
  decide +kernel

lemma blocks_listing :
    (blocks (linesOf listing)).filter (·.heading = .transitions) = [⟨.transitions, steps⟩] := by
  decide +kernel

end Sample

/-- Of three lines, the one in the middle gives an edge. -/
theorem read_takes_edges_sample : read Sample.listing = .ok Sample.listed ∧
    List.Forall₂ (fun (b : Block) (m : Move) =>
      Picks (fun line e => IsEdge line e ∧ ¬ IsDelayed e) b.lines m.edges ∧
        (Picks IsEdge b.lines m.edges ↔
          ∀ line ∈ b.lines, ∀ e, IsEdge line e → ¬ IsDelayed e))
      [⟨.transitions, Sample.steps⟩] Sample.listed.moves :=
  ⟨Sample.read_listing, Sample.blocks_listing ▸ read_takes_edges Sample.read_listing⟩

/-- The edge of a process that is named like a delay is lost. -/
theorem not_read_takes_edges : ¬ ∀ (text : String) (w : Witness), read text = .ok w →
    List.Forall₂ (fun b m => Picks IsEdge b.lines m.edges)
      ((blocks (linesOf text)).filter (·.heading = .transitions)) w.moves := by
  intro h
  have hmoves := h _ _ Sample.read_listing
  rw [Sample.blocks_listing] at hmoves
  obtain ⟨hpicks, -⟩ := List.forall₂_cons.1 hmoves
  have htaken : edge 4 "P.a->P.b\x7bgo?\x7d".toList = .ok ⟨"P", "a", "b", some "go?"⟩ := by
    decide +kernel
  have hdelayed : edge 5 "DelayP.a->DelayP.b\x7bgo!\x7d".toList =
      .ok ⟨"DelayP", "a", "b", some "go!"⟩ := by
    decide +kernel
  have hedges : List.Forall₂ IsEdge (edgeLines Sample.steps) [⟨"P", "a", "b", some "go?"⟩] :=
    .cons (edge_eq_ok_iff.1 htaken) .nil
  exact (picks_isEdge_iff hedges).1 hpicks _ (List.mem_of_getLast? rfl) _
    (edge_eq_ok_iff.1 hdelayed) (by decide)

end TimedPatterns.Listing
