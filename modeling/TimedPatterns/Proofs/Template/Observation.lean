import TimedPatterns.Proofs.Template.Timing
import TimedPatterns.TimedWord

/-!
# Observations

A signal is observed in a word of events if its actions are matched one after the other, each by an
event with its label in its interval. Between two matches, what may not occur is a label of the
alphabet other than the one that is awaited, and a match that is passed over.

Observing is defined along the word, as an observer does it. Three descriptions of it do without
the order of reading: by the positions of the matches; without an alphabet, by a subsequence of the
word; and for a signal without bounds that has only labels of the alphabet, by what counts of the
word.
-/

namespace TimedPatterns

variable {Time : Type*} [LE Time] [IntCast Time] {alphabet : List String} {s : TimedAction}
  {steps : List TimedAction} {e : Event Time} {events : List (Event Time)}

namespace TimedAction

/-- A value of the clock lies in the interval of an action. -/
def Contains (s : TimedAction) (value : Time) : Prop :=
  (∀ b ∈ bound? s.lower, (b : Time) ≤ value) ∧ ∀ b ∈ bound? s.upper, value ≤ (b : Time)

/-- An event matches an action: it has the label, and lies in the interval. -/
def Matches (s : TimedAction) (e : Event Time) : Prop := e.label = s.action ∧ s.Contains e.time

/-- An event may occur while an action is awaited: it has another label that is not in the alphabet,
or it has the label of the action and lies outside of the interval. -/
def Permits (alphabet : List String) (s : TimedAction) (e : Event Time) : Prop :=
  (e.label ≠ s.action ∧ e.label ∉ alphabet) ∨ (e.label = s.action ∧ ¬ s.Contains e.time)

lemma Matches.not_permits (h : s.Matches e) : ¬ s.Permits alphabet e := by
  rintro (⟨hne, -⟩ | ⟨-, houtside⟩)
  · exact hne h.1
  · exact houtside h.2

/-- Without an alphabet, what does not match may occur. -/
lemma permits_nil_iff : s.Permits [] e ↔ ¬ s.Matches e := by
  simp only [Permits, Matches, List.not_mem_nil, not_false_eq_true, and_true, not_and]
  tauto

end TimedAction

/-! ### Observing -/

/-- Whether the actions are observed in a word of events, one after the other. -/
def Observes (alphabet : List String) : List TimedAction → List (Event Time) → Prop
  | [], _ => True
  | _ :: _, [] => False
  | s :: steps, e :: events =>
    (s.Matches e ∧ Observes alphabet steps events) ∨
      (s.Permits alphabet e ∧ Observes alphabet (s :: steps) events)

lemma Observes.nil : Observes alphabet [] events := by
  cases events <;> exact trivial

lemma Observes.of_matches (h : s.Matches e) :
    Observes alphabet (s :: steps) (e :: events) ↔ Observes alphabet steps events := by
  simp only [Observes, h, h.not_permits, true_and, false_and, or_false]

lemma Observes.of_not_matches (h : ¬ s.Matches e) :
    Observes alphabet (s :: steps) (e :: events) ↔
      s.Permits alphabet e ∧ Observes alphabet (s :: steps) events := by
  simp only [Observes, h, false_and, false_or]

/-! ### Positions -/

/-- Positions of events that match the actions, one for each action and in order. What lies between
two of them, or before the first one, may occur while the later action is awaited. -/
structure Located (alphabet : List String) (steps : List TimedAction) (events : List (Event Time))
    (position : Nat → Nat) : Prop where
  ascending : ∀ i < steps.length, ∀ j < i, position j < position i
  matched : ∀ i s, steps[i]? = some s → ∃ e, events[position i]? = some e ∧ s.Matches e
  between : ∀ i s, steps[i]? = some s → ∀ k < position i, (∀ j < i, position j < k) →
    ∀ e, events[k]? = some e → s.Permits alphabet e

namespace Located

variable {position : Nat → Nat}

/-- The positions behind a first event that matches the first action. -/
lemma cons_match (h : Located alphabet steps events position) (hmatch : s.Matches e) :
    Located alphabet (s :: steps) (e :: events) fun
      | 0 => 0
      | i + 1 => position i + 1 where
  ascending i hi j hj := by
    rcases i with _ | i
    · exact absurd hj (Nat.not_lt_zero j)
    · rcases j with _ | j
      · exact Nat.succ_pos _
      · exact Nat.succ_lt_succ
          (h.ascending i (Nat.lt_of_succ_lt_succ hi) j (Nat.lt_of_succ_lt_succ hj))
  matched i s' hs' := by
    rcases i with _ | i
    · obtain rfl : s = s' := Option.some.inj hs'
      exact ⟨e, rfl, hmatch⟩
    · exact h.matched i s' hs'
  between i s' hs' k hk hbehind e' he' := by
    rcases i with _ | i
    · exact absurd hk (Nat.not_lt_zero k)
    · -- the first event is the match of the first action
      rcases k with _ | k
      · exact absurd (hbehind 0 (Nat.succ_pos i)) (Nat.lt_irrefl 0)
      · refine h.between i s' hs' k (Nat.lt_of_succ_lt_succ hk) (fun j hj => ?_) e' he'
        exact Nat.lt_of_succ_lt_succ (hbehind (j + 1) (Nat.succ_lt_succ hj))

/-- The positions behind a first event that is passed over. -/
lemma cons_permit (h : Located alphabet (s :: steps) events position)
    (hpermit : s.Permits alphabet e) :
    Located alphabet (s :: steps) (e :: events) fun i => position i + 1 where
  ascending i hi j hj := Nat.succ_lt_succ (h.ascending i hi j hj)
  matched i s' hs' := h.matched i s' hs'
  between i s' hs' k hk hbehind e' he' := by
    rcases k with _ | k
    · rcases i with _ | i
      · obtain rfl : s = s' := Option.some.inj hs'
        obtain rfl : e = e' := Option.some.inj he'
        exact hpermit
      · exact absurd (hbehind 0 (Nat.succ_pos i)) (Nat.not_lt_zero _)
    · refine h.between i s' hs' k (Nat.lt_of_succ_lt_succ hk) (fun j hj => ?_) e' he'
      exact Nat.lt_of_succ_lt_succ (hbehind j hj)

/-- If the first action is matched by the first event, the others are matched behind it. -/
lemma of_cons_match (h : Located alphabet (s :: steps) (e :: events) position)
    (hfirst : position 0 = 0) :
    s.Matches e ∧ Located alphabet steps events fun i => position (i + 1) - 1 := by
  -- the later positions lie behind the first event, so they can be counted from the second
  have hpos : ∀ i < steps.length, 0 < position (i + 1) := by
    intro i hi
    exact Nat.lt_of_le_of_lt (Nat.zero_le _)
      (h.ascending (i + 1) (Nat.succ_lt_succ hi) 0 (Nat.succ_pos i))
  refine ⟨?_, ⟨?_, ?_, ?_⟩⟩
  · obtain ⟨e', he', hmatch⟩ := h.matched 0 s rfl
    rw [hfirst] at he'
    obtain rfl : e = e' := Option.some.inj he'
    exact hmatch
  · intro i hi j hj
    have hlt := h.ascending (i + 1) (Nat.succ_lt_succ hi) (j + 1) (Nat.succ_lt_succ hj)
    have hj := hpos j (hj.trans hi)
    omega
  · intro i s' hs'
    obtain ⟨e', he', hmatch⟩ := h.matched (i + 1) s' hs'
    have hi := hpos i (List.getElem?_eq_some_iff.1 hs').1
    rw [← Nat.sub_add_cancel hi, List.getElem?_cons_succ] at he'
    exact ⟨e', he', hmatch⟩
  · intro i s' hs' k hk hbehind e' he'
    refine h.between (i + 1) s' hs' (k + 1) (by omega) (fun j hj => ?_) e' he'
    rcases j with _ | j
    · omega
    · have hlt := hbehind j (by omega)
      omega

/-- If the first action is not matched by the first event, this is passed over. -/
lemma of_cons_permit (h : Located alphabet (s :: steps) (e :: events) position)
    (hfirst : 0 < position 0) :
    s.Permits alphabet e ∧ Located alphabet (s :: steps) events fun i => position i - 1 := by
  -- no position is the first event, so all of them can be counted from the second
  have hpos : ∀ i < (s :: steps).length, 0 < position i := by
    intro i hi
    rcases i with _ | i
    · exact hfirst
    · exact hfirst.trans (h.ascending (i + 1) hi 0 (Nat.succ_pos i))
  refine ⟨?_, ⟨?_, ?_, ?_⟩⟩
  · exact h.between 0 s rfl 0 hfirst (fun j hj => absurd hj (Nat.not_lt_zero j)) e rfl
  · intro i hi j hj
    have hlt := h.ascending i hi j hj
    have hj := hpos j (hj.trans hi)
    omega
  · intro i s' hs'
    obtain ⟨e', he', hmatch⟩ := h.matched i s' hs'
    have hi := hpos i (List.getElem?_eq_some_iff.1 hs').1
    rw [← Nat.sub_add_cancel hi, List.getElem?_cons_succ] at he'
    exact ⟨e', he', hmatch⟩
  · intro i s' hs' k hk hbehind e' he'
    refine h.between i s' hs' (k + 1) (by omega) (fun j hj => ?_) e' he'
    have hlt := hbehind j hj
    omega

end Located

/-- Actions are observed if and only if there are positions at which they are matched, with nothing
between them that may not occur. -/
theorem observes_iff_exists_located :
    Observes alphabet steps events ↔ ∃ position, Located alphabet steps events position := by
  induction events generalizing steps with
  | nil =>
    cases steps with
    | nil => exact iff_of_true trivial ⟨id, by simp, by simp, by simp⟩
    | cons s steps =>
      refine iff_of_false id ?_
      rintro ⟨position, h⟩
      obtain ⟨e, he, -⟩ := h.matched 0 s rfl
      cases he
  | cons e events ih =>
    cases steps with
    | nil => exact iff_of_true trivial ⟨id, by simp, by simp, by simp⟩
    | cons s steps =>
      rw [Observes, ih, ih]
      constructor
      · rintro (⟨hmatch, position, h⟩ | ⟨hpermit, position, h⟩)
        · exact ⟨_, h.cons_match hmatch⟩
        · exact ⟨_, h.cons_permit hpermit⟩
      · rintro ⟨position, h⟩
        rcases Nat.eq_zero_or_pos (position 0) with hfirst | hfirst
        · exact .inl ((h.of_cons_match hfirst).imp_right fun h => ⟨_, h⟩)
        · exact .inr ((h.of_cons_permit hfirst).imp_right fun h => ⟨_, h⟩)

/-! ### Subsequences -/

/-- Without an alphabet, actions are observed if and only if some of the events match them, in
order. Nothing is lost by matching each action as early as possible. -/
theorem observes_nil_iff_exists_sublist :
    Observes [] steps events ↔
      ∃ matching, matching.Sublist events ∧ List.Forall₂ TimedAction.Matches steps matching := by
  induction events generalizing steps with
  | nil =>
    cases steps with
    | nil => exact iff_of_true trivial ⟨[], .slnil, .nil⟩
    | cons s steps =>
      refine iff_of_false id ?_
      rintro ⟨matching, hsub, hmatching⟩
      rw [List.sublist_nil.1 hsub] at hmatching
      cases hmatching
  | cons e events ih =>
    cases steps with
    | nil => exact iff_of_true trivial ⟨[], List.nil_sublist _, .nil⟩
    | cons s steps =>
      by_cases hmatch : s.Matches e
      · rw [Observes.of_matches hmatch, ih]
        constructor
        · rintro ⟨matching, hsub, hmatching⟩
          exact ⟨e :: matching, hsub.cons_cons e, .cons hmatch hmatching⟩
        · -- the match of the first action may be exchanged for the first event
          rintro ⟨matching, hsub, hmatching⟩
          cases hmatching with
          | @cons _ first _ matching hfirst hmatching =>
            cases hsub with
            | cons _ hsub => exact ⟨matching, (List.sublist_cons_self _ _).trans hsub, hmatching⟩
            | cons_cons _ hsub => exact ⟨matching, hsub, hmatching⟩
      · rw [Observes.of_not_matches hmatch, TimedAction.permits_nil_iff, and_iff_right hmatch, ih]
        constructor
        · rintro ⟨matching, hsub, hmatching⟩
          exact ⟨matching, hsub.cons e, hmatching⟩
        · rintro ⟨matching, hsub, hmatching⟩
          cases hsub with
          | cons _ hsub => exact ⟨_, hsub, hmatching⟩
          | cons_cons _ hsub =>
            cases hmatching with
            | cons hfirst hmatching => exact absurd hfirst hmatch

/-! ### Prefixes -/

/-- If nothing is bounded and the labels are in the alphabet, actions are observed if and only if
what counts of the events begins with them. -/
theorem observes_iff_initial (hbounds : ∀ s ∈ steps, s.lower = unbounded ∧ s.upper = unbounded)
    (halphabet : ∀ s ∈ steps, s.action ∈ alphabet) :
    Observes alphabet steps events ↔
      steps.map (·.action) <+: (events.map (·.label)).filter (· ∈ alphabet) := by
  induction events generalizing steps with
  | nil =>
    cases steps with
    | nil => exact iff_of_true trivial (List.prefix_refl _)
    | cons s steps => exact iff_of_false id (by simp)
  | cons e events ih =>
    cases steps with
    | nil => exact iff_of_true trivial (List.nil_prefix)
    | cons s steps =>
      obtain ⟨⟨hlower, hupper⟩, hbounds'⟩ := List.forall_mem_cons.1 hbounds
      obtain ⟨haction, halphabet'⟩ := List.forall_mem_cons.1 halphabet
      have hcontains : s.Contains e.time := by
        simp [TimedAction.Contains, hlower, hupper]
      by_cases hlabel : e.label = s.action
      · rw [Observes.of_matches ⟨hlabel, hcontains⟩, ih hbounds' halphabet', List.map_cons,
          List.map_cons, List.filter_cons_of_pos (by simpa [hlabel] using haction), hlabel,
          List.cons_prefix_cons, and_iff_right rfl]
      · rw [Observes.of_not_matches fun h => hlabel h.1, ih hbounds halphabet]
        by_cases hmem : e.label ∈ alphabet
        · -- a label of the alphabet that is not the next one ends the observation
          have hpermit : ¬ s.Permits alphabet e := by
            rintro (⟨-, hout⟩ | ⟨hsame, -⟩)
            · exact hout hmem
            · exact hlabel hsame
          rw [List.map_cons, List.map_cons, List.filter_cons_of_pos (by simpa using hmem),
            List.cons_prefix_cons]
          exact iff_of_false (fun h => hpermit h.1) (fun h => hlabel h.1.symm)
        · have hcounts : ((e :: events).map (·.label)).filter (· ∈ alphabet) =
              (events.map (·.label)).filter (· ∈ alphabet) := by
            simp [hmem]
          rw [and_iff_right (.inl ⟨hlabel, hmem⟩), hcounts]

end TimedPatterns
