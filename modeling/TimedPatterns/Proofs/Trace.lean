import Mathlib.Tactic
import TimedPatterns.Trace

/-!
# The order of a trace, and what is in focus

Transitions make a trace if the clock falls at none of them, which is looked at between neighbours
and then holds between any two. What is in focus is again such a trace. Its word has those positions
of the word of the whole trace at which a label in focus stands, in each of the three columns.
-/

namespace TimedPatterns

variable {prev next s t : Transition} {ts : List Transition} {e : OrderError} {clock : String}
  {i index : Nat}

/-! ### Where the clock falls -/

/-- The clock falls from one transition to the next one. -/
def FallsAt (ts : List Transition) (i : Nat) (s t : Transition) : Prop :=
  ts[i]? = some s ∧ ts[i + 1]? = some t ∧ t.interval.lower < s.interval.lower

/-- The error tells of the first place at which the clock falls: the position of the transition, its
action, and the lower bounds before it and of itself. -/
def TellsFirst (ts : List Transition) (e : OrderError) : Prop :=
  ∃ i s t, FallsAt ts i s t ∧ (∀ j < i, ∀ s t, ¬ FallsAt ts j s t) ∧
    e = ⟨i + 1, t.action, s.interval.lower, t.interval.lower⟩

/-- The clock falls at a place, and not before it. -/
def FallsFirstAt (ts : List Transition) (i : Nat) (s t : Transition) : Prop :=
  FallsAt ts i s t ∧ ∀ j < i, ∀ s t, ¬ FallsAt ts j s t

lemma not_fallsAt_singleton : ¬ FallsAt [prev] i s t := by
  intro h
  have hnext := h.2.1
  simp at hnext

lemma fallsAt_zero_iff : FallsAt (prev :: next :: ts) 0 s t ↔
    (prev = s ∧ next = t) ∧ next.interval.lower < prev.interval.lower := by
  simp only [FallsAt, List.getElem?_cons_zero, List.getElem?_cons_succ, Option.some.injEq,
    ← and_assoc]
  apply and_congr_right
  rintro ⟨rfl, rfl⟩
  rfl

lemma fallsAt_succ_iff : FallsAt (prev :: ts) (i + 1) s t ↔ FallsAt ts i s t := by
  simp [FallsAt]

lemma fallsFirstAt_zero_iff : FallsFirstAt ts 0 s t ↔ FallsAt ts 0 s t := by
  simp [FallsFirstAt]

lemma fallsFirstAt_succ_iff : FallsFirstAt (prev :: ts) (i + 1) s t ↔
    (∀ s t, ¬ FallsAt (prev :: ts) 0 s t) ∧ FallsFirstAt ts i s t := by
  simp only [FallsFirstAt, Nat.forall_lt_succ_left, fallsAt_succ_iff]
  exact and_left_comm

lemma fallAfter?_eq_some_iff : fallAfter? prev index ts = some e ↔
    ∃ i s t, FallsFirstAt (prev :: ts) i s t ∧
      e = ⟨index + i, t.action, s.interval.lower, t.interval.lower⟩ := by
  induction ts generalizing prev index with
  | nil => simp [fallAfter?, FallsFirstAt, not_fallsAt_singleton]
  | cons next ts ih =>
    rw [fallAfter?]
    split_ifs with hfall
    · have hzero : FallsAt (prev :: next :: ts) 0 prev next :=
        fallsAt_zero_iff.2 ⟨⟨rfl, rfl⟩, hfall⟩
      constructor
      · rintro ⟨⟩
        exact ⟨0, prev, next, fallsFirstAt_zero_iff.2 hzero, rfl⟩
      · rintro ⟨_ | i, s, t, hi, rfl⟩
        · obtain ⟨⟨rfl, rfl⟩, -⟩ := fallsAt_zero_iff.1 hi.1
          rfl
        · exact absurd hzero ((fallsFirstAt_succ_iff.1 hi).1 prev next)
    · have hnone : ∀ s t, ¬ FallsAt (prev :: next :: ts) 0 s t :=
        fun s t h => hfall (fallsAt_zero_iff.1 h).2
      rw [ih]
      constructor
      · rintro ⟨i, s, t, hi, rfl⟩
        refine ⟨i + 1, s, t, fallsFirstAt_succ_iff.2 ⟨hnone, hi⟩, ?_⟩
        rw [Nat.add_assoc, Nat.add_comm 1]
      · rintro ⟨_ | i, s, t, hi, rfl⟩
        · exact absurd hi.1 (hnone s t)
        · refine ⟨i, s, t, (fallsFirstAt_succ_iff.1 hi).2, ?_⟩
          rw [Nat.add_assoc, Nat.add_comm 1]

lemma fall?_eq_some_iff : fall? ts = some e ↔ TellsFirst ts e := by
  cases ts with
  | nil => simp [fall?, TellsFirst, FallsAt]
  | cons t ts =>
    rw [fall?, fallAfter?_eq_some_iff, TellsFirst]
    simp only [FallsFirstAt, and_assoc, Nat.add_comm 1]

/-- The clock falls between no neighbours exactly if it falls between no two transitions. -/
lemma fall?_eq_none_iff : fall? ts = none ↔ ts.Pairwise Transition.Before := by
  constructor
  · exact pairwise_of_fall?_eq_none
  · intro hpairwise
    rw [Option.eq_none_iff_forall_ne_some]
    intro e he
    obtain ⟨i, s, t, ⟨hs, ht, hlt⟩, -, -⟩ := fall?_eq_some_iff.1 he
    obtain ⟨hi, rfl⟩ := List.getElem?_eq_some_iff.1 hs
    obtain ⟨hnext, rfl⟩ := List.getElem?_eq_some_iff.1 ht
    have hle := List.pairwise_iff_getElem.1 hpairwise i (i + 1) hi hnext (Nat.lt_succ_self i)
    exact absurd hlt (not_lt.2 hle)

namespace Trace

variable {trace : Trace} {F G : List String}

/-- The trace that is built has the given clock and transitions. -/
theorem ofTransitions_eq_ok_iff :
    ofTransitions clock ts = .ok trace ↔ trace.clock = clock ∧ trace.transitions = ts := by
  unfold ofTransitions
  split
  · next e he =>
    constructor
    · rintro ⟨⟩
    · rintro ⟨-, rfl⟩
      rw [fall?_eq_none_iff.2 trace.ordered] at he
      cases he
  · constructor
    · rintro ⟨⟩
      exact ⟨rfl, rfl⟩
    · rintro ⟨rfl, rfl⟩
      rfl

theorem ofTransitions_eq_error_iff : ofTransitions clock ts = .error e ↔ TellsFirst ts e := by
  rw [← fall?_eq_some_iff]
  unfold ofTransitions
  split
  · next e' he =>
    rw [he]
    simp
  · next hnone => simp [hnone]

lemma exists_ofTransitions_iff :
    (∃ trace, ofTransitions clock ts = .ok trace) ↔ ts.Pairwise Transition.Before := by
  constructor
  · rintro ⟨trace, h⟩
    obtain ⟨-, rfl⟩ := ofTransitions_eq_ok_iff.1 h
    exact trace.ordered
  · intro hpairwise
    exact ⟨⟨clock, ts, hpairwise⟩, ofTransitions_eq_ok_iff.2 ⟨rfl, rfl⟩⟩

/-! ### What is in focus -/

lemma transitions_focus_some (trace : Trace) (F : List String) :
    (trace.focus (some F)).transitions = trace.transitions.filter (·.action ∈ F) := by
  simp [focus]

lemma transitions_focus_focus (trace : Trace) (F G : List String) :
    ((trace.focus (some F)).focus (some G)).transitions =
      trace.transitions.filter fun s => s.action ∈ F ∧ s.action ∈ G := by
  rw [transitions_focus_some, transitions_focus_some, List.filter_filter]
  apply List.filter_congr
  intro s _
  simp [Bool.and_comm]

lemma eq_of_transitions {trace trace' : Trace} (hclock : trace.clock = trace'.clock)
    (htransitions : trace.transitions = trace'.transitions) : trace = trace' := by
  cases trace
  cases trace'
  cases hclock
  cases htransitions
  rfl

/-- The order in which a trace is focused does not matter. -/
theorem focus_comm (trace : Trace) (F G : List String) :
    (trace.focus (some F)).focus (some G) = (trace.focus (some G)).focus (some F) := by
  apply eq_of_transitions
  · rfl
  · rw [transitions_focus_focus, transitions_focus_focus]
    simp only [and_comm]

/-! ### The word of a trace -/

/-- What stands at the marked positions of a list. -/
def marked {α : Type} (marks : List Bool) (xs : List α) : List α :=
  ((marks.zip xs).filter (·.1)).map (·.2)

lemma marked_map {α β : Type} (p : α → Bool) (f : α → β) (xs : List α) :
    marked (xs.map p) (xs.map f) = (xs.filter p).map f := by
  induction xs with
  | nil => rfl
  | cons x xs ih =>
    unfold marked at ih ⊢
    by_cases hx : p x = true
    · simp [hx, ih]
    · simp [hx, ih]

def lowers (trace : Trace) : List Int := trace.transitions.map (·.interval.lower)

/-- The upper bounds of the transitions, where one that is missing bounds nothing. -/
def uppers (trace : Trace) : List Int :=
  trace.transitions.map (·.interval.upper.getD unbounded)

@[simp] lemma actions_toTimedWord (trace : Trace) :
    trace.toTimedWord.actions = trace.actions := by
  simp [toTimedWord, TimedWord.actions, actions]

@[simp] lemma lowers_toTimedWord (trace : Trace) : trace.toTimedWord.lowers = trace.lowers := by
  simp [toTimedWord, TimedWord.lowers, lowers]

@[simp] lemma uppers_toTimedWord (trace : Trace) : trace.toTimedWord.uppers = trace.uppers := by
  simp [toTimedWord, TimedWord.uppers, uppers]

/-- The three columns of a trace are of one length, and make up its word. -/
theorem ofColumns_toTimedWord (trace : Trace) :
    TimedWord.ofColumns trace.actions (some trace.lowers) (some trace.uppers) =
      .ok trace.toTimedWord := by
  have hlowers : trace.lowers.length = trace.actions.length := by simp [lowers, actions]
  have huppers : trace.uppers.length = trace.actions.length := by simp [uppers, actions]
  simp only [TimedWord.ofColumns, TimedWord.boundColumn, if_pos hlowers, if_pos huppers]
  show Except.ok _ = Except.ok _
  rw [lowers, uppers, actions, List.zip_map', List.zipWith_map, List.zipWith_self]
  rfl

/-- Of each column, what is in focus stands at the positions of its actions. -/
lemma columns_focus (trace : Trace) (F : List String) :
    (trace.focus (some F)).actions = marked (trace.actions.map (· ∈ F)) trace.actions ∧
      (trace.focus (some F)).lowers = marked (trace.actions.map (· ∈ F)) trace.lowers ∧
      (trace.focus (some F)).uppers = marked (trace.actions.map (· ∈ F)) trace.uppers := by
  simp only [actions, lowers, uppers, transitions_focus_some, List.map_map, Function.comp_def]
  refine ⟨?_, ?_, ?_⟩
  all_goals exact (marked_map (fun s : Transition => decide (s.action ∈ F)) _ _).symm

/-- Transitions make a trace if and only if no lower bound is above a later one; if they make none,
the error tells of the first transition whose lower bound is below that of the one before it. What
is in focus is again built from its transitions, which are those of the trace with a label in focus;
focusing twice keeps the labels that are in focus both times, in either order. The word of a trace
has its three columns, which are of one length; that of what is in focus has the same positions of
each column. -/
theorem ofTransitions_exact :
    (∀ clock (ts : List Transition),
      ((∃ trace, ofTransitions clock ts = .ok trace) ↔
        ∀ (i j : Nat) (hi : i < ts.length) (hj : j < ts.length), i < j →
          ts[i].interval.lower ≤ ts[j].interval.lower) ∧
      (∀ trace, ofTransitions clock ts = .ok trace ↔
        trace.clock = clock ∧ trace.transitions = ts) ∧
      ∀ e, ofTransitions clock ts = .error e ↔ TellsFirst ts e) ∧
    ∀ (trace : Trace) (F G : List String),
      ofTransitions trace.clock (trace.focus (some F)).transitions =
        .ok (trace.focus (some F)) ∧
      (trace.focus (some F)).transitions = trace.transitions.filter (·.action ∈ F) ∧
      (trace.focus (some F)).focus (some G) = (trace.focus (some G)).focus (some F) ∧
      ((trace.focus (some F)).focus (some G)).transitions =
        trace.transitions.filter (fun s => s.action ∈ F ∧ s.action ∈ G) ∧
      TimedWord.ofColumns trace.actions (some trace.lowers) (some trace.uppers) =
        .ok trace.toTimedWord ∧
      (trace.focus (some F)).toTimedWord.actions =
        marked (trace.actions.map (· ∈ F)) trace.toTimedWord.actions ∧
      (trace.focus (some F)).toTimedWord.lowers =
        marked (trace.actions.map (· ∈ F)) trace.toTimedWord.lowers ∧
      (trace.focus (some F)).toTimedWord.uppers =
        marked (trace.actions.map (· ∈ F)) trace.toTimedWord.uppers := by
  constructor
  · intro clock ts
    refine ⟨?_, fun trace => ofTransitions_eq_ok_iff, fun e => ofTransitions_eq_error_iff⟩
    rw [exists_ofTransitions_iff, List.pairwise_iff_getElem]
    rfl
  · intro trace F G
    simp only [actions_toTimedWord, lowers_toTimedWord, uppers_toTimedWord]
    exact ⟨ofTransitions_eq_ok_iff.2 ⟨rfl, rfl⟩, transitions_focus_some trace F,
      focus_comm trace F G, transitions_focus_focus trace F G, ofColumns_toTimedWord trace,
      columns_focus trace F⟩

/-- The clock falls at the last of three transitions; the first two make a trace, of which the
second one is in focus. -/
theorem ofTransitions_exact_sample :
    let send : Transition := ⟨"send", [], ⟨2, some 5⟩⟩
    let tick : Transition := ⟨"tick", [], ⟨2, none⟩⟩
    let ack : Transition := ⟨"ack", [], ⟨1, some 3⟩⟩
    ofTransitions "c" [send, tick, ack] = .error ⟨2, "ack", 2, 1⟩ ∧
      ∃ trace, ofTransitions "c" [send, tick] = .ok trace ∧
        (trace.focus (some ["tick", "ack"])).toTimedWord.uppers = [unbounded] := by
  intro send tick ack
  obtain ⟨hbuilds, hfocus⟩ := ofTransitions_exact
  have htells : TellsFirst [send, tick, ack] ⟨2, "ack", 2, 1⟩ := by
    refine ⟨1, tick, ack, ⟨rfl, rfl, by decide⟩, ?_, rfl⟩
    -- the only earlier pair is that of the two transitions at the same time
    rintro j hj s t ⟨hs, ht, hlt⟩
    obtain rfl : j = 0 := by omega
    cases hs
    cases ht
    exact absurd hlt (by decide)
  have hordered : ∀ (i j : Nat) (hi : i < [send, tick].length) (hj : j < [send, tick].length),
      i < j → [send, tick][i].interval.lower ≤ [send, tick][j].interval.lower := by
    intro i j hi hj hij
    obtain ⟨rfl, rfl⟩ : i = 0 ∧ j = 1 := by simp at hj; omega
    exact le_refl (2 : Int)
  obtain ⟨haccepts, hok, -⟩ := hbuilds "c" [send, tick]
  obtain ⟨trace, htrace⟩ := haccepts.2 hordered
  obtain ⟨-, -, -, -, -, -, -, huppers⟩ := hfocus trace ["tick", "ack"] []
  refine ⟨((hbuilds "c" _).2.2 _).2 htells, trace, htrace, ?_⟩
  rw [huppers, uppers_toTimedWord, uppers, actions, ((hok trace).1 htrace).2]
  decide

end Trace

end TimedPatterns
