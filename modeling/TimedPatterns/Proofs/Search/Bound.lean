import TimedPatterns.Proofs.Search.Keeping

/-!
# How many rounds a search has

A round that comes first finds something, or it is the last one; and between two patterns there is
a bounded number of rounds. So the rounds of a search are bounded by the patterns that it finds,
whatever the verifier does. They are bounded in advance if there is a limit to the patterns, or if
the witnesses of the verifier spell finitely many label sequences.
-/

namespace TimedPatterns

variable {l : Limits} {i : Inquiry} {rounds : List Round} {p : Progress}

/-! ### Courses -/

/-- One round more than the patterns account for is the last one. -/
lemma Ended.length_le {answer : Answer} (h : Ended l i rounds answer) :
    rounds.length ≤ (patternsOf l rounds).length * max 1 l.maxStale + 1 := by
  cases h with
  | unsupported _ => exact Nat.zero_le _
  | enough h _ =>
    rw [← h.found_eq]
    exact h.length_le.trans (Nat.le_succ _)
  | @refused before p r _ h _ _ | @finished before p r _ _ h _ _ _ =>
    have hbefore := h.length_le
    rw [h.found_eq] at hbefore
    have hfound : (patternsOf l before).length ≤ (patternsOf l (before ++ [r])).length :=
      (patternsOf_mono (List.prefix_append _ _)).length_le
    have hmore := Nat.mul_le_mul_right (max 1 l.maxStale) hfound
    rw [List.length_append, List.length_singleton]
    omega

lemma Course.length_le {n : Nat} {answer : Option Answer} (h : Course l i n rounds answer) :
    rounds.length ≤ (patternsOf l rounds).length * max 1 l.maxStale + 1 := by
  cases answer with
  | none =>
    obtain ⟨-, p, h, -⟩ := h
    rw [← h.found_eq]
    exact h.length_le.trans (Nat.le_succ _)
  | some answer => exact Ended.length_le h

/-- How many rounds a search may have that looks for a number of patterns. Before the last of them
a pattern is missing. -/
def roundsFor (maxStale : Nat) : Nat → Nat
  | 0 => 0
  | patterns + 1 => patterns * max 1 maxStale + 1

/-- A search that goes on has carried out fewer rounds than it may have. -/
lemma Underway.length_lt_roundsFor {max : Nat} (h : Underway l i rounds p)
    (hmore : p.found.length < max) : rounds.length < roundsFor l.maxStale max := by
  obtain ⟨max, rfl⟩ := Nat.exists_eq_add_of_lt hmore
  have hle := h.length_le
  have hfound := Nat.mul_le_mul_right (Nat.max 1 l.maxStale) (Nat.le_add_right p.found.length max)
  exact Nat.lt_succ_of_le (hle.trans hfound)

lemma Limits.lt_of_not_reached {max count : Nat} (hmax : l.patterns = some max)
    (hmore : l.reached count = false) : count < max := by
  rw [Bool.eq_false_iff, ne_eq, Limits.reached_iff] at hmore
  exact Nat.lt_of_not_le fun hle => hmore ⟨max, hmax, hle⟩

/-- With a limit to its patterns, a search has no more rounds than it may have for them. -/
lemma Carried.length_le_roundsFor {max : Nat} (h : Carried l i rounds)
    (hmax : l.patterns = some max) : rounds.length ≤ roundsFor l.maxStale max := by
  rcases List.eq_nil_or_concat' rounds with rfl | ⟨before, r, rfl⟩
  · exact Nat.zero_le _
  · obtain ⟨p, hunderway, hround⟩ := h before r [] rfl
    have hlt := hunderway.length_lt_roundsFor (Limits.lt_of_not_reached hmax hround.more)
    simpa using hlt

/-- With enough rounds for a number of patterns that it does not exceed, a search ends. -/
lemma Course.isSome {n max : Nat} {answer : Option Answer} (h : Course l i n rounds answer)
    (hmax : ∀ p, Underway l i rounds p → l.reached p.found.length = false → p.found.length < max)
    (hn : roundsFor l.maxStale max ≤ n) : answer.isSome := by
  cases answer with
  | some answer => rfl
  | none =>
    obtain ⟨rfl, p, h, hmore⟩ := h
    have hlt := h.length_lt_roundsFor (hmax p h hmore)
    exact absurd hn (Nat.not_le_of_lt hlt)

/-! ### More rounds than needed -/

namespace Search

variable (s : Search) {limit : Option Nat} {n n' : Nat} {w : World}

/-- With more rounds, a search goes on where it stops with fewer. If it has ended by then, it does
not make use of them. -/
lemma Explored.eq_or_initial {s : Search} {log : List Round}
    {result : (Option Answer × List Round) × World} (h : s.Explored l i n p log w result)
    (hn : n ≤ n') :
    exploreFrom l i s.askLogged n' p log w = result ∨
      result.1.1 = none ∧ result.1.2 <+: (exploreFrom l i s.askLogged n' p log w).1.2 := by
  -- on the exploration with fewer rounds: one that ended goes the same way with more, and one that
  -- ran out of rounds goes on
  induction h generalizing n' with
  | enough henough =>
    rw [exploreFrom_of_reached henough]
    exact .inl rfl
  | spent _ => exact .inr ⟨rfl, (s.explored l i n' _ _ _).log_initial⟩
  | unsupported hmore hq =>
    obtain ⟨n', rfl⟩ := Nat.exists_eq_add_of_lt hn
    simp only [exploreFrom, hmore, hq]
    exact .inl rfl
  | refused hmore hq hread =>
    obtain ⟨n', rfl⟩ := Nat.exists_eq_add_of_lt hn
    rw [s.exploreFrom_succ hmore hq, hread]
    exact .inl rfl
  | finished hmore hq hread hstep =>
    obtain ⟨n', rfl⟩ := Nat.exists_eq_add_of_lt hn
    rw [s.exploreFrom_succ hmore hq, hread]
    dsimp only
    rw [hstep, behind]
    exact .inl rfl
  | again hmore hq hread hstep _ ih =>
    obtain ⟨n', rfl⟩ := Nat.exists_eq_add_of_lt hn
    rw [s.exploreFrom_succ hmore hq, hread]
    dsimp only
    rw [hstep]
    exact ih (by omega)

/-- A search that has ended does not make use of more rounds. -/
lemma Explored.exploreFrom_eq {s : Search} {log : List Round}
    {result : (Option Answer × List Round) × World} (h : s.Explored l i n p log w result)
    (hended : result.1.1.isSome) (hn : n ≤ n') :
    exploreFrom l i s.askLogged n' p log w = result := by
  rcases h.eq_or_initial hn with heq | ⟨hnone, -⟩
  · exact heq
  · rw [hnone] at hended
    cases hended

/-- With more rounds, a search carries out the same rounds first. -/
lemma history_initial_of_le {i : Inquiry} (hn : n ≤ n') :
    s.history i limit n w <+: s.history i limit n' w := by
  unfold history findAllLogged explore
  split
  · rcases (s.explored ⟨limit, s.maxStale⟩ i n {} [] w).eq_or_initial hn with heq | ⟨-, hinitial⟩
    · rw [heq]
    · exact hinitial
  · exact List.prefix_refl _

/-- More rounds change neither the history of a search that has ended nor its answer. -/
lemma findAllLogged_of_isSome {i : Inquiry} (hn : n ≤ n') (h : (s.findAll i limit n w).1.isSome) :
    s.findAllLogged i limit n' [] w = s.findAllLogged i limit n [] w := by
  have hanswer := congrArg (·.1.1) (s.findAllLogged_apply i limit n w)
  dsimp only at hanswer
  rw [← hanswer] at h
  unfold findAllLogged explore at h ⊢
  split
  · next hquery =>
    rw [if_pos hquery] at h
    exact (s.explored _ i n {} [] w).exploreFrom_eq h hn
  · rfl

lemma history_of_isSome {i : Inquiry} (hn : n ≤ n') (h : (s.findAll i limit n w).1.isSome) :
    s.history i limit n' w = s.history i limit n w :=
  congrArg (·.1.2) (s.findAllLogged_of_isSome hn h)

/-- All that a search carries out is carried out with the rounds with which it has ended. -/
lemma history_initial_of_isSome {i : Inquiry} (h : (s.findAll i limit n w).1.isSome) (n' : Nat) :
    s.history i limit n' w <+: s.history i limit n w := by
  rcases Nat.le_total n' n with hn | hn
  · exact s.history_initial_of_le hn
  · rw [s.history_of_isSome hn h]

lemma findAll_of_isSome {i : Inquiry} (hn : n ≤ n') (h : (s.findAll i limit n w).1.isSome) :
    s.findAll i limit n' w = s.findAll i limit n w := by
  have hsame := s.findAllLogged_of_isSome hn h
  rw [findAllLogged_apply, findAllLogged_apply] at hsame
  exact Prod.ext (congrArg (·.1.1) hsame) (congrArg (·.2) hsame)

/-! ### Ending -/

/-- A search has ended after a number of rounds, so that more of them change nothing. -/
def EndsWithin (s : Search) (i : Inquiry) (limit : Option Nat) (w : World) (n : Nat) : Prop :=
  ∃ answer w', ∀ n' ≥ n, s.findAll i limit n' w = (some answer, w')

lemma endsWithin_of_isSome {i : Inquiry} (h : (s.findAll i limit n w).1.isSome) :
    s.EndsWithin i limit w n := by
  obtain ⟨answer, hanswer⟩ := Option.isSome_iff_exists.1 h
  refine ⟨answer, (s.findAll i limit n w).2, fun n' hn => ?_⟩
  rw [s.findAll_of_isSome hn h]
  exact Prod.ext hanswer rfl

/-- The label sequences in focus that the witnesses of the verifier spell in a search without a
limit, in whatever number of rounds. -/
def spelled (s : Search) (i : Inquiry) (w : World) : Set (List String) :=
  {u | ∃ n, ∃ r ∈ s.history i none n w, ∃ reading ∈ r.readings, ∃ trace, reading.Shows trace ∧
    u = (trace.focus i.focus).toTimedWord.actions}

lemma mem_spelled_iff {i : Inquiry} {u : List String} :
    u ∈ s.spelled i w ↔ ∃ n, ∃ r ∈ s.history i none n w, ∃ word,
      .pattern word ∈ r.contributions ∧ u = word.actions := by
  refine exists_congr fun n => exists_congr fun r => and_congr_right fun hr => ?_
  obtain ⟨before, after, hcut⟩ := List.append_of_mem hr
  obtain ⟨p, -, hasks⟩ := (s.course_history i none n w).carried before r after hcut
  simp only [Round.mem_contributions_iff, hasks.focus_eq]
  constructor
  · rintro ⟨reading, hreading, trace, hshows, rfl⟩
    exact ⟨_, ⟨reading, hreading, trace, hshows, rfl⟩, rfl⟩
  · rintro ⟨_, ⟨reading, hreading, trace, hshows, rfl⟩, rfl⟩
    exact ⟨reading, hreading, trace, hshows, rfl⟩

/-- A search finds no more patterns than label sequences are spelled. -/
lemma length_patternsOf_history_le {i : Inquiry} (hfinite : (s.spelled i w).Finite) (n : Nat) :
    (patternsOf ⟨none, s.maxStale⟩ (s.history i none n w)).length ≤ (s.spelled i w).ncard := by
  have hnodup := nodup_patternsOf ⟨none, s.maxStale⟩ (s.history i none n w)
  have hsub : {u | u ∈ labelsOf (patternsOf ⟨none, s.maxStale⟩ (s.history i none n w))} ⊆
      s.spelled i w := by
    intro u hu
    obtain ⟨d, hd, rfl⟩ := mem_labelsOf.1 hu
    obtain ⟨r, hr, reading, hreading, trace, hshows, hpattern⟩ :=
      (s.course_history i none n w).carried.shown hd
    exact ⟨n, r, hr, reading, hreading, trace, hshows, by rw [hpattern]⟩
  have hcard := Set.encard_le_encard hsub
  rw [encard_labelsOf hnodup, ← hfinite.cast_ncard_eq] at hcard
  exact_mod_cast hcard

/-- Whatever the verifier does, the rounds of a search are bounded by the patterns that it finds,
and with a limit to the patterns they are bounded by it. So with a limit the search ends; without
one, it ends if the witnesses of the verifier spell finitely many label sequences. -/
theorem findAll_rounds (s : Search) (i : Inquiry) (limit : Option Nat) (w : World) :
    (∀ n,
      (s.history i limit n w).length ≤
        (patternsOf ⟨limit, s.maxStale⟩ (s.history i limit n w)).length * max 1 s.maxStale + 1 ∧
      ∀ found, (s.findAll i limit n w).1 = some (.ok found) →
        (s.history i limit n w).length ≤ found.length * max 1 s.maxStale + 1) ∧
    (∀ patterns, limit = some patterns →
      (∀ n, (s.history i limit n w).length ≤ roundsFor s.maxStale patterns) ∧
      s.EndsWithin i limit w (roundsFor s.maxStale patterns)) ∧
    (limit = none → (s.spelled i w).Finite →
      s.EndsWithin i limit w ((s.spelled i w).ncard * max 1 s.maxStale + 1)) := by
  have hcourse := fun n => s.course_history i limit n w
  refine ⟨fun n => ⟨(hcourse n).length_le, fun found hfound => ?_⟩, ?_, ?_⟩
  · have hended := hcourse n
    rw [hfound] at hended
    have hlength := Course.length_le hended
    rwa [← Ended.found_eq hended] at hlength
  · rintro patterns rfl
    refine ⟨fun n => (hcourse n).carried.length_le_roundsFor rfl, s.endsWithin_of_isSome ?_⟩
    exact (hcourse _).isSome (fun p _ => Limits.lt_of_not_reached rfl) le_rfl
  · rintro rfl hfinite
    -- the patterns are among the words spelled, so a limit above their number is never reached
    have hfound := s.length_patternsOf_history_le hfinite
    have hn : roundsFor s.maxStale ((s.spelled i w).ncard + 1) ≤
        (s.spelled i w).ncard * max 1 s.maxStale + 1 := le_rfl
    refine s.endsWithin_of_isSome ((hcourse _).isSome (fun p h _ => ?_) hn)
    rw [h.found_eq]
    exact Nat.lt_succ_of_le (hfound _)

/-- The verifier of the sample spells one label sequence, so that a search without a limit ends. -/
theorem rounds_sample :
    (Sample.search.spelled (.ofRequest Sample.search.clock (Sample.request none))
        Sample.world).Finite ∧
      ∃ n ≤ 4, Sample.search.EndsWithin (.ofRequest Sample.search.clock (Sample.request none)) none
        Sample.world n := by
  have hended : (Sample.search.findAll (.ofRequest Sample.search.clock (Sample.request none)) none 3
      Sample.world).1.isSome := by
    rw [Sample.findAll_eq]
    rfl
  have hall : ∀ r ∈ Sample.search.history
      (.ofRequest Sample.search.clock (Sample.request none)) none 3 Sample.world,
      ∀ c ∈ r.contributions, c = .unsatisfied ∨ c = .pattern ⟨[⟨"a", 0, -1⟩]⟩ := by
    decide +kernel
  -- no number of rounds shows more than the three after which the search ends
  have hspelled : Sample.search.spelled (.ofRequest Sample.search.clock (Sample.request none))
      Sample.world ⊆ {["a"]} := by
    intro u hu
    obtain ⟨n, r, hr, word, hword, rfl⟩ := Sample.search.mem_spelled_iff.1 hu
    have hinitial := Sample.search.history_initial_of_isSome hended n
    rcases hall r (hinitial.subset hr) _ hword with hword | hword
    · cases hword
    · cases hword
      rfl
  have hfinite := (Set.finite_singleton ["a"]).subset hspelled
  have hcard := Set.ncard_le_ncard hspelled (Set.finite_singleton ["a"])
  rw [Set.ncard_singleton] at hcard
  have hrounds := findAll_rounds Sample.search
    (.ofRequest Sample.search.clock (Sample.request none)) none Sample.world
  refine ⟨hfinite, _, ?_, hrounds.2.2 rfl hfinite⟩
  exact Nat.succ_le_succ (Nat.mul_le_mul_right 3 hcard)

end Search

end TimedPatterns
