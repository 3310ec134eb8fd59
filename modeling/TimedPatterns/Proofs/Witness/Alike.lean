import TimedPatterns.Proofs.Table
import TimedPatterns.Witness.Basic

/-!
# Witnesses with the same traces

The interval that a state leaves to a clock does not depend on the order of its constraints: a
constraint narrows one end of the interval, and two constraints can be exchanged. The only
constraints that fail all fail in the same way.

A trace takes from a witness the edges of each move and the interval of the state that the move
leads to. So two witnesses have the same traces if their moves have the same edges and lead to
states with the same constraints, wherever these states stand.
-/

namespace TimedPatterns

variable {w w' : Witness} {m m' : Move}

/-! ### Intervals -/

/-- What a constraint does to every interval: it lowers the upper end, raises the lower end, fails
or does nothing. -/
lemma Difference.narrow_cases (clock : String) (d : Difference) :
    (∃ k, ∀ i, d.narrow clock i = .ok { i with upper := some (i.upper.elim k (min · k)) }) ∨
      (∃ k, ∀ i, d.narrow clock i = .ok { i with lower := max i.lower k }) ∨
      (∀ i, d.narrow clock i = .error (.lowerOutOfRange Text.minSigned clock)) ∨
      ∀ i, d.narrow clock i = .ok i := by
  unfold Difference.narrow
  split_ifs with hupper hlower hbound
  · exact .inl ⟨d.bound, fun _ => rfl⟩
  · exact .inr (.inr (.inl fun _ => by rw [hbound]))
  · exact .inr (.inl ⟨-d.bound, fun _ => rfl⟩)
  · exact .inr (.inr (.inr fun _ => rfl))

lemma Difference.narrow_right_comm (clock : String) (i : ClockInterval) (d e : Difference) :
    (d.narrow clock i >>= fun i => e.narrow clock i) =
      e.narrow clock i >>= fun i => d.narrow clock i := by
  have hupper (k l : Int) :
      min (i.upper.elim k (min · k)) l = min (i.upper.elim l (min · l)) k := by
    cases i.upper with
    | none => exact min_comm k l
    | some u => exact min_right_comm u k l
  rcases d.narrow_cases clock with ⟨k, hd⟩ | ⟨k, hd⟩ | hd | hd <;>
    rcases e.narrow_cases clock with ⟨l, he⟩ | ⟨l, he⟩ | he | he <;>
      simp [hd, he, bind, Except.bind, hupper, max_right_comm]

theorem SymbolicState.interval_eq_of_perm {s s' : SymbolicState}
    (h : s.differences.Perm s'.differences) (clock : String) :
    s.interval clock = s'.interval clock :=
  foldlM_perm (Difference.narrow_right_comm clock) h .full

/-! ### Traces -/

/-- Two moves have the same edges, and lead to states with the same constraints among the states of
their witnesses. -/
structure Move.Alike (states states' : List SymbolicState) (m m' : Move) : Prop where
  edges : m.edges = m'.edges
  target : ∃ s s', states[m.target]? = some s ∧ states'[m'.target]? = some s' ∧
    s.differences.Perm s'.differences

/-- Two witnesses agree in what a trace takes from them. -/
structure Witness.Alike (w w' : Witness) : Prop where
  isEmpty : w.states.isEmpty = w'.states.isEmpty
  moves : List.Forall₂ (Move.Alike w.states w'.states) w.moves w'.moves

lemma Move.Alike.transition?_eq (h : m.Alike w.states w'.states m') (clock : String) :
    w.transition? clock m = w'.transition? clock m' := by
  obtain ⟨s, s', hs, hs', hperm⟩ := h.target
  rw [Witness.transition?, Witness.transition?, hs, hs', h.edges]
  simp only [SymbolicState.interval_eq_of_perm hperm]

lemma Witness.transitions_eq {ms ms' : List Move}
    (h : List.Forall₂ (Move.Alike w.states w'.states) ms ms') (clock : String) :
    w.transitions clock ms = w'.transitions clock ms' := by
  induction h with
  | nil => rfl
  | cons hm _ ih => rw [Witness.transitions, Witness.transitions, hm.transition?_eq, ih]

theorem Witness.Alike.trace_eq (h : w.Alike w') (clock : String) :
    w.trace clock = w'.trace clock := by
  rw [Witness.trace, Witness.trace, h.isEmpty, Witness.transitions_eq h.moves]

end TimedPatterns
