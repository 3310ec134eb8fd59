import TimedPatterns.Proofs.Search.Exclusion

/-!
# Ideal verifiers

An ideal verifier knows a set of words. A run of it shows one of the words that no monitor passes
on, whichever it likes, and if there is none, the run says that the formula is not satisfied.

With an ideal verifier, each round of a search finds something new or is the last one. So a search
has at most as many rounds as it finds patterns, and one round more in which it learns that there
is nothing else: what counts of any of the words has then been found.
-/

namespace TimedPatterns

/-- A run of an ideal verifier for some words, on a model with the given templates added. -/
inductive Reading.Ideal (words : Set (List String)) (plan : Instrumentation) (r : Reading) : Prop
  | shows {trace : Trace} (h : r.Shows trace) (hmem : trace.actions ∈ words)
      (hadmits : plan.Admits trace.actions)
  | refutes (h : r.verdict = .notSatisfied) (hnone : ∀ w ∈ words, ¬ plan.Admits w)

/-- A round in which all runs are those of an ideal verifier. -/
def Round.Ideal (words : Set (List String)) (r : Round) : Prop :=
  ∃ readings, r.answer = .ok readings ∧ ∀ reading ∈ readings, reading.Ideal words r.inquiry.plan

/-- What is in focus of some words. -/
def restrictions (focus : Option (List String)) (words : Set (List String)) : Set (List String) :=
  {u | ∃ w ∈ words, inFocus focus w = u}

/-- How many of some patterns a search looks for. -/
noncomputable def quota (limit : Option Nat) (patterns : Set (List String)) : ℕ∞ :=
  min (limit.elim ⊤ Nat.cast) patterns.encard

/-- Something is found of all the words: what counts of them is one of the patterns. -/
def Exhausts (words : Set (List String)) (i : Inquiry) (found : List Discovered) : Prop :=
  ∀ w ∈ words,
    w.filter (· ∈ exclusionAlphabet i.focus i.plan.observedAlphabet found) ∈ labelsOf found

variable {l : Limits} {i : Inquiry} {rounds : List Round} {p : Progress} {r : Round}
  {words : Set (List String)} {u : List String}

/-! ### Runs -/

/-- A run contributes what is in focus of a word that is admitted, or the proof that there is
none. -/
lemma Reading.Ideal.contribution {plan : Instrumentation} {reading : Reading}
    (h : reading.Ideal words plan) (focus : Option (List String)) :
    (∃ word, reading.contribution focus = .pattern word ∧
        ∃ w ∈ words, plan.Admits w ∧ word.actions = inFocus focus w) ∨
      (reading.contribution focus = .unsatisfied ∧ ∀ w ∈ words, ¬ plan.Admits w) := by
  cases h with
  | @shows trace h hmem hadmits =>
    exact .inl ⟨_, Reading.contribution_eq_pattern_iff.2 ⟨trace, h, rfl⟩, trace.actions, hmem,
      hadmits, actions_focus focus trace⟩
  | refutes h hnone => exact .inr ⟨Reading.contribution_eq_unsatisfied_iff.2 h, hnone⟩

/-! ### Rounds -/

/-- What is in focus of a word that is admitted has not been found. -/
lemma Asks.not_mem_of_admits (hround : Asks l i p r) (h : Underway l i rounds p) {w : List String}
    (hadmits : r.inquiry.plan.Admits w) : inFocus i.focus w ∉ labelsOf p.found := by
  have hcovers := hround.covers h
  rw [Instrumentation.admits_iff hcovers] at hadmits
  rw [hround.plan_eq] at hcovers hadmits
  cases hfocus : i.focus with
  | some focused =>
    rw [hfocus] at hadmits
    exact hadmits
  | none =>
    -- all the labels of a word that has been found count
    intro hfound
    have hcounts := List.filter_eq_self.2 fun a ha => decide_eq_true (hcovers w hfound a ha)
    exact hadmits (hcounts.symm ▸ hfound)

/-- What the runs of an ideal verifier contribute to a round. -/
lemma Round.Ideal.of_mem_contributions (h : r.Ideal words) {c : Contribution}
    (hc : c ∈ r.contributions) :
    (∃ word, c = .pattern word ∧ ∃ w ∈ words, r.inquiry.plan.Admits w ∧
        word.actions = inFocus r.inquiry.focus w) ∨
      (c = .unsatisfied ∧ ∀ w ∈ words, ¬ r.inquiry.plan.Admits w) := by
  obtain ⟨readings, hanswer, hideal⟩ := h
  rw [Round.contributions, Round.readings, hanswer] at hc
  obtain ⟨reading, hreading, rfl⟩ := List.mem_map.1 hc
  exact (hideal reading hreading).contribution r.inquiry.focus

lemma Round.Ideal.failed_not_mem (h : r.Ideal words) (error : SearchError) :
    .failed error ∉ r.contributions := by
  intro hmem
  rcases h.of_mem_contributions hmem with ⟨word, hword, -⟩ | ⟨hproof, -⟩
  · cases hword
  · cases hproof

lemma Asks.contributions_ne_nil (hround : Asks l i p r) (h : r.Ideal words) :
    r.contributions ≠ [] := by
  obtain ⟨readings, hanswer, -⟩ := h
  rw [Round.contributions, Round.readings, hanswer]
  exact fun hnil => hround.runs readings hanswer (List.map_eq_nil_iff.1 hnil)

/-- A round with an ideal verifier finds something new, or it is the last one. -/
lemma Asks.step_of_ideal (hround : Asks l i p r) (h : Underway l i rounds p)
    (hideal : r.Ideal words) :
    (∃ p', p.step l r.inquiry.query r.contributions = .again p' ∧
        p.found.length < p'.found.length) ∨
      (p.step l r.inquiry.query r.contributions = .finish (.ok p.found) ∧
        ∀ w ∈ words, ¬ r.inquiry.plan.Admits w) := by
  have hne := hround.contributions_ne_nil hideal
  let t : Tally := { found := p.found }
  by_cases hnone : ∀ w ∈ words, ¬ r.inquiry.plan.Admits w
  · -- no word passes what the query asks for, so every run proves that nothing is left
    right
    have hall : ∀ c ∈ r.contributions, c = .unsatisfied := by
      intro c hc
      rcases hideal.of_mem_contributions hc with ⟨-, -, w, hw, hadmits, -⟩ | ⟨hproof, -⟩
      · exact absurd hadmits (hnone w hw)
      · exact hproof
    refine ⟨?_, hnone⟩
    rw [Progress.step, Tally.ofRound_eq_addAll, Tally.addAll_of_unsatisfied hall hne]
    exact Tally.step_of_unsatisfied rfl rfl rfl
  · -- a word passes, and a run that shows one shows a new pattern, since the query excludes the old
    -- ones
    left
    obtain ⟨c, hc⟩ := List.exists_mem_of_ne_nil _ hne
    rcases hideal.of_mem_contributions hc with ⟨word, rfl, w, -, hadmits, hactions⟩ | ⟨-, hproof⟩
    · have hnew : word.actions ∉ labelsOf t.found := by
        rw [hactions, hround.focus_eq]
        exact hround.not_mem_of_admits h hadmits
      have hlt := Tally.length_lt_addAll r.inquiry.query hround.more hnew hc
      have hpos : 0 < (t.addAll l r.inquiry.query r.contributions).fresh := by
        have hcount := Tally.length_addAll_add_fresh l r.inquiry.query t r.contributions
        have hzero : t.fresh = 0 := rfl
        omega
      exact ⟨_, Tally.step_of_fresh (Tally.errors_addAll hideal.failed_not_mem) hpos, hlt⟩
    · exact absurd hproof hnone

/-! ### Checking -/

lemma Reading.ideal_of_isIdeal {words : List (List String)} {plan : Instrumentation}
    {reading : Reading} (hcovers : plan.Covers) (h : reading.isIdeal words plan = true) :
    reading.Ideal {w | w ∈ words} plan := by
  unfold isIdeal at h
  split at h
  · next trace hwitness =>
    obtain ⟨hmem, hnew⟩ : trace.actions ∈ words ∧
        trace.actions.filter (· ∈ plan.exclusionAlphabet) ∉ plan.excluded := by simpa using h
    exact .shows (shows_iff.2 hwitness) hmem ((Instrumentation.admits_iff hcovers).2 hnew)
  · cases h
  · next hwitness =>
    obtain ⟨hverdict, hall⟩ : reading.verdict = .notSatisfied ∧
        ∀ w ∈ words, w.filter (· ∈ plan.exclusionAlphabet) ∈ plan.excluded := by simpa using h
    refine .refutes hverdict fun w hw => ?_
    rw [Instrumentation.admits_iff hcovers, not_not]
    exact hall w hw

lemma Round.ideal_of_isIdeal {words : List (List String)} (hcovers : r.inquiry.plan.Covers)
    (h : r.isIdeal words = true) : r.Ideal {w | w ∈ words} := by
  unfold isIdeal at h
  split at h
  · next readings hanswer =>
    refine ⟨readings, hanswer, fun reading hreading => ?_⟩
    exact Reading.ideal_of_isIdeal hcovers (List.all_eq_true.1 h reading hreading)
  · cases h

/-! ### Courses -/

/-- A search that is still under way has carried out at most as many rounds as it has patterns. -/
lemma Underway.length_le_of_ideal (h : Underway l i rounds p)
    (hideal : ∀ r ∈ rounds, r.Ideal words) : rounds.length ≤ p.found.length := by
  induction h with
  | start _ => exact Nat.zero_le _
  | @again rounds p p' r readings h hround hanswer hstep ih =>
    have hbefore := ih fun r hr => hideal r (List.mem_append_left _ hr)
    have hlast : r.Ideal words := hideal r List.mem_concat_self
    rcases hround.step_of_ideal h hlast with ⟨next, hnext, hlt⟩ | ⟨hend, -⟩
    · obtain rfl : next = p' := by
        rw [hstep] at hnext
        exact (Step.again.inj hnext).symm
      rw [List.length_append, List.length_singleton]
      exact Nat.succ_le_of_lt (Nat.lt_of_le_of_lt hbefore hlt)
    · rw [hstep] at hend
      cases hend

/-- A search ends with enough patterns, or when something is found of all the words. -/
lemma Ended.of_ideal {answer : Answer} (h : Ended l i rounds answer)
    (hquery : i.query.isReachability = true) (hideal : ∀ r ∈ rounds, r.Ideal words) :
    answer = .ok (patternsOf l rounds) ∧ (l.reached (patternsOf l rounds).length = true ∨
      Exhausts words i (patternsOf l rounds)) := by
  cases h with
  | unsupported hunsupported =>
    rw [hquery] at hunsupported
    cases hunsupported
  | enough h henough =>
    rw [← h.found_eq]
    exact ⟨rfl, .inl henough⟩
  | @refused rounds p r error h hround hanswer =>
    obtain ⟨readings, hok, -⟩ := hideal r List.mem_concat_self
    rw [hanswer] at hok
    cases hok
  | @finished rounds p r readings answer h hround hanswer hstep =>
    have hlast : r.Ideal words := hideal r List.mem_concat_self
    rcases hround.step_of_ideal h hlast with ⟨next, hnext, -⟩ | ⟨hend, hnone⟩
    · rw [hstep] at hnext
      cases hnext
    · obtain rfl : answer = .ok p.found := by
        rw [hstep] at hend
        exact Step.finish.inj hend
      have hfound : p.found = patternsOf l (rounds ++ [r]) := by
        rw [patternsOf_append_singleton, ← h.found_eq]
        exact Progress.found_of_step_eq_finish hstep
      rw [← hfound]
      refine ⟨rfl, .inr fun w hw => ?_⟩
      -- the last query is not passed by the word, so one of the patterns found excludes it
      have hpasses := hnone w hw
      rw [Instrumentation.admits_iff (hround.covers h), not_not, hround.plan_eq] at hpasses
      exact hpasses

lemma Carried.covers (h : Carried l i rounds) (hr : r ∈ rounds) : r.inquiry.plan.Covers := by
  obtain ⟨before, after, hcut⟩ := List.append_of_mem hr
  obtain ⟨p, hunderway, hasks⟩ := h before r after hcut
  exact hasks.covers hunderway

/-- What is found is in focus of the words. -/
lemma Carried.mem_restrictions_of_ideal (h : Carried l i rounds)
    (hideal : ∀ r ∈ rounds, r.Ideal words) (hu : u ∈ labelsOf (patternsOf l rounds)) :
    u ∈ restrictions i.focus words := by
  obtain ⟨d, hd, rfl⟩ := mem_labelsOf.1 hu
  obtain ⟨r, hr, reading, hreading, trace, hshows, hpattern⟩ := h.shown hd
  obtain ⟨readings, hanswer, hall⟩ := hideal r hr
  rw [Round.readings, hanswer] at hreading
  cases hall reading hreading with
  | @shows trace' hshows' hmem _ =>
    obtain rfl : trace = trace' := by
      have hsame := hshows.2.symm.trans hshows'.2
      exact Except.ok.inj (Option.some.inj hsame)
    exact ⟨trace.actions, hmem, by rw [hpattern, actions_focus]⟩
  | refutes hverdict _ =>
    rw [hshows.1] at hverdict
    cases hverdict

namespace Search

variable (s : Search) {limit : Option Nat} {n : Nat} {w : World}

lemma ideal_of_isIdeal {words : List (List String)}
    (h : (s.history i limit n w).all (·.isIdeal words) = true) :
    ∀ r ∈ s.history i limit n w, r.Ideal {w | w ∈ words} := fun r hr =>
  Round.ideal_of_isIdeal ((s.course_history i limit n w).carried.covers hr)
    (List.all_eq_true.1 h r hr)

/-- With an ideal verifier, a search that has the rounds for it ends with enough patterns, or with
something of all the words. -/
lemma findAll_of_ideal (hquery : i.query.isReachability = true)
    (hideal : ∀ r ∈ s.history i limit n w, r.Ideal words)
    (hn : quota limit (restrictions i.focus words) < n) :
    ∃ found, (s.findAll i limit n w).1 = some (.ok found) ∧ (labelsOf found).Nodup ∧
      (∀ u ∈ labelsOf found, u ∈ restrictions i.focus words) ∧
      (found.length : ℕ∞) ≤ quota limit (restrictions i.focus words) ∧
      (limit = some found.length ∨ Exhausts words i found) := by
  have hcourse := s.course_history i limit n w
  generalize s.history i limit n w = rounds at hideal hcourse
  generalize (s.findAll i limit n w).1 = answer at hcourse
  have hnodup := nodup_patternsOf ⟨limit, s.maxStale⟩ rounds
  have hmax : ∀ max, limit = some max → (patternsOf ⟨limit, s.maxStale⟩ rounds).length ≤ max :=
    fun max hlimit => length_patternsOf_le hlimit rounds
  have hsub : ∀ u ∈ labelsOf (patternsOf ⟨limit, s.maxStale⟩ rounds),
      u ∈ restrictions i.focus words :=
    fun u hu => hcourse.carried.mem_restrictions_of_ideal hideal hu
  have hquota : ((patternsOf ⟨limit, s.maxStale⟩ rounds).length : ℕ∞) ≤
      quota limit (restrictions i.focus words) := by
    refine le_min ?_ (encard_labelsOf hnodup ▸ Set.encard_le_encard hsub)
    cases limit with
    | none => exact le_top
    | some max => exact Nat.cast_le.2 (hmax max rfl)
  cases answer with
  | none =>
    obtain ⟨hlength, p, h, -⟩ := hcourse
    -- no answer would need as many rounds as are allowed, with a new pattern in each of them, which
    -- is more than the quota
    have hrounds := h.length_le_of_ideal hideal
    rw [h.found_eq, hlength] at hrounds
    exact absurd (hn.trans_le ((Nat.cast_le.2 hrounds).trans hquota)) (lt_irrefl _)
  | some answer =>
    obtain ⟨rfl, hend⟩ := Ended.of_ideal hcourse hquery hideal
    refine ⟨_, rfl, hnodup, hsub, hquota, hend.imp_left fun henough => ?_⟩
    obtain ⟨max, hlimit, hle⟩ := Limits.reached_iff.1 henough
    exact hlimit.trans (congrArg some (Nat.le_antisymm hle (hmax max hlimit)))

end Search

end TimedPatterns
