import TimedPatterns.Proofs.Template.Monitor
import TimedPatterns.Proofs.Template.Observation

/-!
# Observers recognise observations

An observer awaits the actions of a signal one after the other. From the location of an action it
goes on with an event that matches it, fails with an event that may not occur, and stays where it is
otherwise. So it ends in `pass` exactly on the words of events in which the signal is observed, and
it reads each word in one way.
-/

namespace TimedPatterns.Template

variable {Time : Type*} [LE Time] [IntCast Time] {word : TimedWord}
  {alphabet : Option (List String)} {mark clock : String} {p q : Nat} {s : TimedAction}
  {e : Event Time} {events : List (Event Time)} {edge : TemplateEdge}

/-! ### Edges -/

/-- An edge of a chain leads from the location of an action to the next one. -/
lemma mem_chainEdges :
    edge ∈ chainEdges mark clock word ↔ ∃ i s, word.steps[i]? = some s ∧
      edge = ⟨i, i + 1, guard? clock (bound? s.lower) (bound? s.upper), s.action ++ mark⟩ := by
  simp only [chainEdges, TimedWord.bounded, List.mem_mapIdx, List.length_map, List.getElem_map]
  constructor
  · rintro ⟨i, hi, rfl⟩
    exact ⟨i, word.steps[i], by simp, rfl⟩
  · rintro ⟨i, s, hi, rfl⟩
    obtain ⟨hlt, rfl⟩ := List.getElem?_eq_some_iff.1 hi
    exact ⟨i, hlt, rfl⟩

/-- An edge of an observer receives the label of an action and goes on, or receives another label of
the alphabet and fails. -/
lemma mem_edges_observer :
    edge ∈ (observer word alphabet clock).edges ↔ ∃ i s, word.steps[i]? = some s ∧
      (edge = ⟨i, i + 1, guard? clock (bound? s.lower) (bound? s.upper), s.action ++ "?"⟩ ∨
        ∃ label ∈ alphabet.getD [], s.action ≠ label ∧
          edge = ⟨i, word.length + 1, none, label ++ "?"⟩) := by
  simp only [observer, List.mem_append, mem_chainEdges, TimedWord.actions, List.mem_flatten,
    List.mem_mapIdx, List.length_map, List.getElem_map]
  constructor
  · rintro (⟨i, s, hi, hedge⟩ | ⟨_, ⟨i, hi, rfl⟩, hedge⟩)
    · exact ⟨i, s, hi, .inl hedge⟩
    · obtain ⟨label, hlabel, hne, hedge⟩ := mem_failEdges.1 hedge
      exact ⟨i, word.steps[i], by simp, .inr ⟨label, hlabel, by simpa using hne, hedge⟩⟩
  · rintro ⟨i, s, hi, hedge | ⟨label, hlabel, hne, hedge⟩⟩
    · exact .inl ⟨i, s, hi, hedge⟩
    · obtain ⟨hlt, rfl⟩ := List.getElem?_eq_some_iff.1 hi
      exact .inr ⟨_, ⟨i, hlt, rfl⟩, mem_failEdges.2 ⟨label, hlabel, by simpa using hne, hedge⟩⟩

/-- An edge of an observer may be taken at the location of an action: by an event that matches the
action, or by one that has another label of the alphabet. -/
lemma enables_observer_iff :
    (observer word alphabet clock).Enables clock p e edge ↔ ∃ s, word.steps[p]? = some s ∧
      ((s.Matches e ∧
          edge = ⟨p, p + 1, guard? clock (bound? s.lower) (bound? s.upper), e.label ++ "?"⟩) ∨
        (e.label ≠ s.action ∧ e.label ∈ alphabet.getD [] ∧
          edge = ⟨p, word.length + 1, none, e.label ++ "?"⟩)) := by
  rw [Enables, mem_receiving, mem_edges_observer]
  constructor
  · rintro ⟨⟨⟨i, s, hi, rfl | ⟨label, hlabel, hne, rfl⟩⟩, rfl, hsync⟩, hguard⟩
    · have hlabel : s.action = e.label := (String.append_left_inj _).1 hsync
      rw [← hlabel]
      exact ⟨s, hi, .inl ⟨⟨hlabel.symm, guardHolds_guard?_iff.1 hguard⟩, rfl⟩⟩
    · obtain rfl : label = e.label := (String.append_left_inj _).1 hsync
      exact ⟨s, hi, .inr ⟨hne.symm, hlabel, rfl⟩⟩
  · rintro ⟨s, hi, ⟨⟨hlabel, hcontains⟩, rfl⟩ | ⟨hne, hlabel, rfl⟩⟩
    · refine ⟨⟨⟨p, s, hi, .inl ?_⟩, rfl, rfl⟩, guardHolds_guard?_iff.2 hcontains⟩
      rw [hlabel]
    · exact ⟨⟨⟨p, s, hi, .inr ⟨e.label, hlabel, hne.symm, rfl⟩⟩, rfl, rfl⟩, trivial⟩

/-- All the edges of an observer that may be taken for an event lead to one location. -/
lemma decided_observer (word : TimedWord) (alphabet : Option (List String)) (clock : String)
    (Time : Type*) [LE Time] [IntCast Time] :
    (observer word alphabet clock).Decided clock Time := by
  intro p e edge edge' h h'
  obtain ⟨s, hs, ⟨hmatch, rfl⟩ | ⟨hne, -, rfl⟩⟩ := enables_observer_iff.1 h <;>
  obtain ⟨s', hs', ⟨hmatch', rfl⟩ | ⟨hne', -, rfl⟩⟩ := enables_observer_iff.1 h' <;>
  obtain rfl : s = s' := Option.some.inj (hs.symm.trans hs')
  · rfl
  · exact absurd hmatch.1 hne'
  · exact absurd hmatch'.1 hne
  · rfl

/-! ### One event -/

/-- An event that matches the action that is awaited takes an observer to the next location. -/
lemma follows_observer_of_matches (hs : word.steps[p]? = some s) (h : s.Matches e) :
    (observer word alphabet clock).Follows clock p e q ↔ q = p + 1 := by
  refine follows_iff_of_target ⟨_, enables_observer_iff.2 ⟨s, hs, .inl ⟨h, rfl⟩⟩⟩ fun edge he => ?_
  obtain ⟨s', hs', ⟨-, rfl⟩ | ⟨hne, -, -⟩⟩ := enables_observer_iff.1 he
  · rfl
  · obtain rfl : s = s' := Option.some.inj (hs.symm.trans hs')
    exact absurd h.1 hne

/-- An event that may occur leaves an observer where it is. -/
lemma follows_observer_of_permits (hs : word.steps[p]? = some s)
    (h : s.Permits (alphabet.getD []) e) :
    (observer word alphabet clock).Follows clock p e q ↔ q = p := by
  refine follows_iff_of_idle fun edge he => ?_
  obtain ⟨s', hs', hcases⟩ := enables_observer_iff.1 he
  obtain rfl : s = s' := Option.some.inj (hs.symm.trans hs')
  rcases hcases with ⟨hmatch, -⟩ | ⟨hne, hmem, -⟩
  · exact hmatch.not_permits h
  · rcases h with ⟨-, hout⟩ | ⟨hsame, -⟩
    · exact hout hmem
    · exact hne hsame

/-- Any other event makes an observer fail. -/
lemma follows_observer_of_not (hs : word.steps[p]? = some s) (hmatch : ¬ s.Matches e)
    (hpermit : ¬ s.Permits (alphabet.getD []) e) :
    (observer word alphabet clock).Follows clock p e q ↔ q = word.length + 1 := by
  have hne : e.label ≠ s.action := by
    intro hsame
    exact hpermit (.inr ⟨hsame, fun hcontains => hmatch ⟨hsame, hcontains⟩⟩)
  have hmem : e.label ∈ alphabet.getD [] := by
    by_contra hout
    exact hpermit (.inl ⟨hne, hout⟩)
  refine follows_iff_of_target
    ⟨_, enables_observer_iff.2 ⟨s, hs, .inr ⟨hne, hmem, rfl⟩⟩⟩ fun edge he => ?_
  obtain ⟨s', hs', ⟨hmatch', -⟩ | ⟨-, -, rfl⟩⟩ := enables_observer_iff.1 he
  · obtain rfl : s = s' := Option.some.inj (hs.symm.trans hs')
    exact absurd hmatch' hmatch
  · rfl

/-- Behind the last action, nothing moves an observer. -/
lemma follows_observer_of_length_le (hp : word.length ≤ p) :
    (observer word alphabet clock).Follows clock p e q ↔ q = p := by
  refine follows_iff_of_idle fun edge he => ?_
  obtain ⟨s, hs, -⟩ := enables_observer_iff.1 he
  rw [List.getElem?_eq_none hp] at hs
  cases hs

/-! ### Words of events -/

lemma runs_observer_of_length_le (hp : word.length ≤ p) :
    (observer word alphabet clock).Runs clock p events q ↔ q = p := by
  induction events with
  | nil => exact runs_nil_iff
  | cons e events ih =>
    simp only [runs_cons_iff, follows_observer_of_length_le hp, exists_eq_left, ih]

/-- Only the location behind the last action is called `pass`. -/
lemma nameAt?_observer_eq_pass_iff :
    (observer word alphabet clock).nameAt? p = some "pass" ↔ p = word.length := by
  rcases Nat.lt_or_ge p (word.length + 1) with hp | hp
  · have hloc : (observer word alphabet clock).locations[p]? =
        some ⟨chainName "saw" "pass" word.length p, none⟩ := by
      simp [observer, List.getElem?_append_left, hp]
    simp [nameAt?, hloc, apart_saw.chainName_eq_last_iff]
  · refine iff_of_false (fun hname => ?_) (by omega)
    -- behind the chain there is `fail` at most
    obtain ⟨location, hloc, hname⟩ := Option.map_eq_some_iff.1 hname
    rw [observer, List.getElem?_append_right (by simpa using hp)] at hloc
    have hmem := List.mem_of_getElem? hloc
    split at hmem
    · rw [List.mem_singleton.1 hmem] at hname
      simp at hname
    · cases hmem

/-- From the location of an action, an observer comes to `pass` exactly on the words in which the
rest of the signal is observed. -/
lemma runs_observer_length_iff (hp : p ≤ word.length) :
    (observer word alphabet clock).Runs clock p events word.length ↔
      Observes (alphabet.getD []) (word.steps.drop p) events := by
  -- on the events, from every location: the last location is never left, and the one behind it
  -- never reaches it
  induction events generalizing p with
  | nil =>
    rw [runs_nil_iff]
    rcases hp.eq_or_lt with rfl | hlt
    · rw [TimedWord.length, List.drop_length]
      exact iff_of_true rfl Observes.nil
    · rw [List.drop_eq_getElem_cons hlt]
      exact iff_of_false hlt.ne' id
  | cons e events ih =>
    rw [runs_cons_iff]
    rcases hp.eq_or_lt with rfl | hlt
    · simp only [follows_observer_of_length_le le_rfl, exists_eq_left, ih le_rfl]
      rw [TimedWord.length, List.drop_length]
      exact iff_of_true Observes.nil Observes.nil
    · have hs : word.steps[p]? = some word.steps[p] := List.getElem?_eq_getElem hlt
      have hdrop : word.steps.drop p = word.steps[p] :: word.steps.drop (p + 1) :=
        List.drop_eq_getElem_cons hlt
      rw [hdrop]
      by_cases hmatch : word.steps[p].Matches e
      · simp only [follows_observer_of_matches hs hmatch, exists_eq_left, ih hlt]
        exact (Observes.of_matches hmatch).symm
      · rw [Observes.of_not_matches hmatch]
        by_cases hpermit : word.steps[p].Permits (alphabet.getD []) e
        · simp only [follows_observer_of_permits hs hpermit, exists_eq_left, ih hp, hdrop,
            hpermit, true_and]
        · simp only [follows_observer_of_not hs hmatch hpermit, exists_eq_left,
            runs_observer_of_length_le (Nat.le_succ word.length), hpermit, false_and, iff_false]
          exact (Nat.lt_succ_self _).ne

/-- An observer recognises the words of events in which its signal is observed. -/
lemma recognises_observer_iff :
    (observer word alphabet clock).Recognises clock events ↔
      Observes (alphabet.getD []) word.steps events := by
  simp only [Recognises, nameAt?_observer_eq_pass_iff, exists_eq_right]
  exact runs_observer_length_iff (Nat.zero_le _)

end TimedPatterns.Template
