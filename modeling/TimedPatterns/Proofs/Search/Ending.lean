import TimedPatterns.Proofs.Search.Found

/-!
# How a search ends

Behind its first round, a search has found something. So a round in which every run fails ends it
with an error only if it is the first one. Later on, a search ends behind the first round in which
every run fails, or which adds nothing and proves that there is nothing to find, or which is the
last of a number of rounds in a row that add nothing.

This bounds the rounds of a search by the patterns that it finds.
-/

namespace TimedPatterns

namespace Round

/-- Every run of a round failed. -/
def Fails (r : Round) : Prop := ∀ c ∈ r.contributions, ∃ error, c = .failed error

/-- What comes of a round if some patterns have been found before it. -/
def tally (l : Limits) (r : Round) (found : List Discovered) : Tally :=
  Tally.ofRound l r.inquiry.query found r.contributions

end Round

/-- How many rounds in a row have added no pattern when a place is reached. -/
def idleBefore (l : Limits) (rounds : List Round) : Nat → Nat
  | 0 => 0
  | place + 1 =>
    if foundBefore l rounds (place + 1) = foundBefore l rounds place then
      idleBefore l rounds place + 1
    else 0

/-- The round at a place is one that ends a search. -/
inductive Ends (l : Limits) (rounds : List Round) (place : Nat) (r : Round) : Prop
  /-- Every run failed, but something had been found. -/
  | broken (hall : r.Fails) (hsome : foundBefore l rounds place ≠ [])
  /-- Nothing is new, and a run proves that there is nothing to find. -/
  | exhausted (hidle : foundBefore l rounds (place + 1) = foundBefore l rounds place)
      (hproof : ∃ reading ∈ r.readings, reading.verdict = .notSatisfied)
  /-- Nothing is new, for the last time. -/
  | tired (hidle : idleBefore l rounds (place + 1) = max 1 l.maxStale)

variable {l : Limits} {i : Inquiry} {rounds more : List Round} {p p' : Progress} {r : Round}
  {readings : List Reading} {found : List Discovered} {place : Nat}

/-! ### Places -/

lemma foundBefore_length (l : Limits) (rounds : List Round) :
    foundBefore l rounds rounds.length = patternsOf l rounds := by
  rw [foundBefore, List.take_length]

lemma foundBefore_append (h : place ≤ rounds.length) :
    foundBefore l (rounds ++ more) place = foundBefore l rounds place := by
  rw [foundBefore, foundBefore, List.take_append_of_le_length h]

lemma idleBefore_append (h : place ≤ rounds.length) :
    idleBefore l (rounds ++ more) place = idleBefore l rounds place := by
  induction place with
  | zero => rfl
  | succ place ih =>
    have hplace := Nat.le_of_succ_le h
    rw [idleBefore, idleBefore, foundBefore_append h, foundBefore_append hplace, ih hplace]

/-- Later rounds do not change whether a round is one that ends a search. -/
lemma ends_append_iff (h : place < rounds.length) :
    Ends l (rounds ++ more) place r ↔ Ends l rounds place r := by
  have hbefore : foundBefore l (rounds ++ more) place = foundBefore l rounds place :=
    foundBefore_append h.le
  have hbehind : foundBefore l (rounds ++ more) (place + 1) = foundBefore l rounds (place + 1) :=
    foundBefore_append h
  have hidle : idleBefore l (rounds ++ more) (place + 1) = idleBefore l rounds (place + 1) :=
    idleBefore_append h
  constructor
  · rintro (⟨hall, hsome⟩ | ⟨hnone, hproof⟩ | ⟨hlast⟩)
    · exact .broken hall (hbefore ▸ hsome)
    · exact .exhausted (by rwa [hbefore, hbehind] at hnone) hproof
    · exact .tired (hidle ▸ hlast)
  · rintro (⟨hall, hsome⟩ | ⟨hnone, hproof⟩ | ⟨hlast⟩)
    · exact .broken hall (hbefore ▸ hsome)
    · exact .exhausted (by rwa [hbefore, hbehind]) hproof
    · exact .tired (hidle ▸ hlast)

lemma Underway.foundBefore_eq (h : Underway l i rounds p) (r : Round) :
    foundBefore l (rounds ++ [r]) rounds.length = p.found := by
  rw [foundBefore_append le_rfl, foundBefore_length, h.found_eq]

lemma Underway.foundBefore_succ_eq (h : Underway l i rounds p) (r : Round) :
    foundBefore l (rounds ++ [r]) (rounds.length + 1) = (r.tally l p.found).found := by
  rw [foundBefore_succ (r := r) (by simp), List.take_left, patternsOf_append_singleton,
    ← h.found_eq]
  rfl

/-! ### What the runs of a round contribute -/

namespace Round

lemma errors_tally : (r.tally l found).errors = r.contributions.filterMap (·.error?) := by
  rw [tally, Tally.ofRound_eq_addAll, Tally.errors_addAll_eq, List.nil_append]

lemma length_errors_tally_iff :
    (r.tally l found).errors.length = r.contributions.length ↔ r.Fails := by
  simp only [errors_tally, List.filterMap_length_eq_length, Contribution.isSome_error?_iff, Fails]

lemma unsatisfied_tally_iff :
    (r.tally l found).unsatisfied = true ↔
      ∃ reading ∈ r.readings, reading.verdict = .notSatisfied := by
  rw [tally, Tally.ofRound_eq_addAll, Tally.unsatisfied_addAll]
  simp [contributions, Reading.contribution_eq_unsatisfied_iff]

/-- The patterns that are found before a round stand before those that it adds. -/
lemma exists_found_tally (l : Limits) (r : Round) (found : List Discovered) :
    ∃ fresh, (r.tally l found).found = found ++ fresh ∧
      (r.tally l found).fresh = fresh.length ∧
      ∀ d ∈ fresh, .pattern d.pattern ∈ r.contributions := by
  obtain ⟨fresh, hfresh, hshown⟩ :=
    Tally.exists_fresh l r.inquiry.query { found } r.contributions
  have hcount := Tally.length_addAll_add_fresh l r.inquiry.query { found } r.contributions
  rw [hfresh, List.length_append] at hcount
  refine ⟨fresh, hfresh, ?_, fun d hd => (hshown d hd).2⟩
  exact (Nat.add_left_cancel hcount).symm

lemma fresh_tally_eq_zero_iff : (r.tally l found).fresh = 0 ↔ (r.tally l found).found = found := by
  obtain ⟨fresh, hfound, hfresh, -⟩ := exists_found_tally l r found
  rw [hfound, hfresh, List.append_right_eq_self, List.length_eq_zero_iff]

/-- If every run fails, nothing is added. -/
lemma found_tally_of_fails (h : r.Fails) : (r.tally l found).found = found := by
  obtain ⟨fresh, hfound, -, hshown⟩ := exists_found_tally l r found
  rw [hfound, List.append_right_eq_self, List.eq_nil_iff_forall_not_mem]
  intro d hd
  obtain ⟨error, herror⟩ := h _ (hshown d hd)
  cases herror

end Round

/-! ### Behind a round -/

lemma Asks.exists_contribution (hround : Asks l i p r) (hanswer : r.answer = .ok readings) :
    ∃ c contributions, r.contributions = c :: contributions := by
  obtain ⟨reading, readings', rfl⟩ := List.exists_cons_of_ne_nil (hround.runs readings hanswer)
  exact ⟨_, _, by rw [Round.contributions, Round.readings, hanswer, List.map_cons]⟩

/-- Not every run fails if there are no errors, or not as many as runs. -/
lemma Asks.not_fails (hround : Asks l i p r) (hanswer : r.answer = .ok readings)
    (hruns : (r.tally l found).errors = [] ∨
      (r.tally l found).errors.length ≠ r.contributions.length) : ¬ r.Fails := by
  intro hall
  have hlength : (r.tally l found).errors.length = r.contributions.length :=
    Round.length_errors_tally_iff.2 hall
  rcases hruns with hnone | hne
  · obtain ⟨c, contributions, hcons⟩ := hround.exists_contribution hanswer
    rw [hnone, hcons] at hlength
    cases hlength
  · exact hne hlength

/-- What a search does behind a round in which every run fails. -/
lemma Asks.step_of_fails (hround : Asks l i p r) (hanswer : r.answer = .ok readings)
    (hall : r.Fails) :
    ∃ error, r.contributions.head? = some (.failed error) ∧
      p.step l r.inquiry.query r.contributions =
        .finish (if p.found.isEmpty then .error error else .ok p.found) := by
  obtain ⟨c, contributions, hcons⟩ := hround.exists_contribution hanswer
  obtain ⟨error, rfl⟩ := hall c (hcons ▸ List.mem_cons_self)
  refine ⟨error, congrArg List.head? hcons, ?_⟩
  have herrors : (r.tally l p.found).errors = error :: contributions.filterMap (·.error?) := by
    rw [Round.errors_tally, hcons]
    rfl
  have hlength : (r.tally l p.found).errors.length = r.contributions.length :=
    Round.length_errors_tally_iff.2 hall
  rw [Progress.step, ← Round.tally, Tally.step, herrors]
  dsimp only
  rw [← herrors, if_pos hlength, Round.found_tally_of_fails hall]

/-- A round leaves a search with patterns, unless every run fails, or nothing is new and a run
proves that there is nothing to find. -/
lemma Asks.found_ne_nil (hround : Asks l i p r) (hall : ¬ r.Fails)
    (hproof : (r.tally l p.found).fresh = 0 → (r.tally l p.found).unsatisfied = false) :
    (r.tally l p.found).found ≠ [] := by
  intro hnone
  obtain ⟨fresh, hfound, hfresh, -⟩ := Round.exists_found_tally l r p.found
  rw [hnone, eq_comm, List.append_eq_nil_iff] at hfound
  obtain ⟨hbefore, rfl⟩ := hfound
  refine hall fun c hc => ?_
  cases c with
  | pattern word =>
    -- a pattern that is shown is found, as there are not enough patterns
    have hshown := Tally.reached_or_mem_labelsOf l r.inquiry.query { found := p.found } hc
    rw [← Tally.ofRound_eq_addAll, ← Round.tally, hnone] at hshown
    have hmore := hround.more
    rw [hbefore] at hmore
    rcases hshown with henough | hmem
    · rw [hmore] at henough
      cases henough
    · cases hmem
  | unsatisfied =>
    have hrefuted := hproof hfresh
    rw [Round.tally, Tally.ofRound_eq_addAll, Bool.eq_false_iff, ne_eq,
      Tally.unsatisfied_addAll] at hrefuted
    exact absurd (.inr hc) hrefuted
  | failed error => exact ⟨error, rfl⟩

/-! ### Under way -/

/-- What is known of a search that is under way: it counts the rounds without a new pattern, it has
found something unless it has only begun, and none of its rounds is one that ends a search. -/
structure Steady (l : Limits) (rounds : List Round) (p : Progress) : Prop where
  stale_eq : p.stale = idleBefore l rounds rounds.length
  stale_lt : p.stale < max 1 l.maxStale
  found_ne_nil : rounds ≠ [] → p.found ≠ []
  not_fails : ∀ r ∈ rounds, ¬ r.Fails
  not_ends : ∀ place r, rounds[place]? = some r → ¬ Ends l rounds place r
  length_le : rounds ≠ [] →
    rounds.length + max 1 l.maxStale ≤ p.found.length * max 1 l.maxStale + 1 + p.stale

namespace Steady

lemma start (l : Limits) : Steady l [] {} where
  stale_eq := rfl
  stale_lt := Nat.lt_of_lt_of_le Nat.zero_lt_one (Nat.le_max_left _ _)
  found_ne_nil h := absurd rfl h
  not_fails := by simp
  not_ends := by simp
  length_le h := absurd rfl h

/-- If the last round is not one that ends a search, no round is. -/
lemma not_ends_concat (hsteady : Steady l rounds p)
    (hlast : ¬ Ends l (rounds ++ [r]) rounds.length r) :
    ∀ place r', (rounds ++ [r])[place]? = some r' → ¬ Ends l (rounds ++ [r]) place r' := by
  intro place r' hr'
  rcases Nat.lt_trichotomy place rounds.length with hplace | rfl | hplace
  · rw [List.getElem?_append_left hplace] at hr'
    rw [ends_append_iff hplace]
    exact hsteady.not_ends place r' hr'
  · obtain rfl : r = r' := by simpa using hr'
    exact hlast
  · rw [List.getElem?_eq_none (by simpa using hplace)] at hr'
    cases hr'

section Underway

variable (hsteady : Steady l rounds p) (h : Underway l i rounds p)

include hsteady h

lemma idleBefore_succ_eq (r : Round) :
    idleBefore l (rounds ++ [r]) (rounds.length + 1) =
      if (r.tally l p.found).fresh = 0 then p.stale + 1 else 0 := by
  rw [idleBefore, h.foundBefore_eq, h.foundBefore_succ_eq, idleBefore_append le_rfl,
    hsteady.stale_eq]
  simp only [Round.fresh_tally_eq_zero_iff]

/-- When a round that a search carries out is one that ends it. -/
lemma ends_iff (r : Round) :
    Ends l (rounds ++ [r]) rounds.length r ↔
      (r.Fails ∧ p.found ≠ []) ∨
      ((r.tally l p.found).fresh = 0 ∧
        ((r.tally l p.found).unsatisfied = true ∨ p.stale + 1 = max 1 l.maxStale)) := by
  have hidle := hsteady.idleBefore_succ_eq h r
  constructor
  · rintro (⟨hall, hsome⟩ | ⟨hnone, hproof⟩ | ⟨hlast⟩)
    · exact .inl ⟨hall, h.foundBefore_eq r ▸ hsome⟩
    · rw [h.foundBefore_eq, h.foundBefore_succ_eq] at hnone
      exact .inr ⟨Round.fresh_tally_eq_zero_iff.2 hnone,
        .inl (Round.unsatisfied_tally_iff.2 hproof)⟩
    · rw [hidle] at hlast
      split at hlast
      · next hnone => exact .inr ⟨hnone, .inr hlast⟩
      · omega
  · rintro (⟨hall, hsome⟩ | ⟨hnone, hproof | hlast⟩)
    · exact .broken hall (h.foundBefore_eq r ▸ hsome)
    · refine .exhausted ?_ (Round.unsatisfied_tally_iff.1 hproof)
      rw [h.foundBefore_eq, h.foundBefore_succ_eq]
      exact Round.fresh_tally_eq_zero_iff.1 hnone
    · exact .tired (by rw [hidle, if_pos hnone, hlast])

/-- A search remains steady behind a round with a new pattern. -/
lemma renewed (hround : Asks l i p r) (hall : ¬ r.Fails) (hnew : 0 < (r.tally l p.found).fresh) :
    Steady l (rounds ++ [r]) ⟨(r.tally l p.found).found, 0⟩ where
  stale_eq := by
    rw [List.length_append, List.length_singleton, hsteady.idleBefore_succ_eq h,
      if_neg hnew.ne']
  stale_lt := Nat.lt_of_lt_of_le Nat.zero_lt_one (Nat.le_max_left _ _)
  found_ne_nil _ := hround.found_ne_nil hall fun hnone => absurd hnone hnew.ne'
  not_fails := List.forall_mem_append.2 ⟨hsteady.not_fails, List.forall_mem_singleton.2 hall⟩
  not_ends := by
    refine hsteady.not_ends_concat fun hends => ?_
    rcases (hsteady.ends_iff h r).1 hends with ⟨hfails, -⟩ | ⟨hnone, -⟩
    · exact hall hfails
    · exact hnew.ne' hnone
  length_le _ := by
    obtain ⟨fresh, hfound, hfresh, -⟩ := Round.exists_found_tally l r p.found
    have hcount : p.found.length + 1 ≤ (r.tally l p.found).found.length := by
      rw [hfound, List.length_append]
      omega
    -- a new pattern pays for as many idle rounds as are allowed
    have hrounds : rounds.length + max 1 l.maxStale ≤
        (p.found.length + 1) * max 1 l.maxStale := by
      rw [Nat.succ_mul]
      rcases eq_or_ne rounds [] with rfl | hne
      · simp
      · have hlength := hsteady.length_le hne
        have hlt := hsteady.stale_lt
        omega
    have hmore := hrounds.trans (Nat.mul_le_mul_right (max 1 l.maxStale) hcount)
    rw [List.length_append, List.length_singleton]
    dsimp only
    omega

/-- A search remains steady behind a round without a new pattern that is not the last one. -/
lemma idle (hround : Asks l i p r) (hall : ¬ r.Fails) (hnone : (r.tally l p.found).fresh = 0)
    (hproof : (r.tally l p.found).unsatisfied = false) (hstale : p.stale + 1 < l.maxStale) :
    Steady l (rounds ++ [r]) ⟨(r.tally l p.found).found, p.stale + 1⟩ where
  stale_eq := by
    rw [List.length_append, List.length_singleton, hsteady.idleBefore_succ_eq h, if_pos hnone]
  stale_lt := hstale.trans_le (Nat.le_max_right _ _)
  found_ne_nil _ := hround.found_ne_nil hall fun _ => hproof
  not_fails := List.forall_mem_append.2 ⟨hsteady.not_fails, List.forall_mem_singleton.2 hall⟩
  not_ends := by
    refine hsteady.not_ends_concat fun hends => ?_
    rcases (hsteady.ends_iff h r).1 hends with ⟨hfails, -⟩ | ⟨-, hrefuted | hlast⟩
    · exact hall hfails
    · rw [hproof] at hrefuted
      cases hrefuted
    · exact absurd (hlast ▸ hstale) (Nat.not_lt_of_le (Nat.le_max_right _ _))
  length_le _ := by
    have hsome := hround.found_ne_nil hall fun _ => hproof
    rw [Round.fresh_tally_eq_zero_iff.1 hnone] at hsome ⊢
    -- an idle round is not the first: before it a pattern was found
    have hne : rounds ≠ [] := by
      rintro rfl
      exact hsome h.found_eq
    have hlength := hsteady.length_le hne
    rw [List.length_append, List.length_singleton]
    dsimp only
    omega

end Underway

end Steady

lemma Progress.concludes (l : Limits) (p : Progress) (r : Round) :
    (r.tally l p.found).Concludes l r.contributions.length p.stale
      (p.step l r.inquiry.query r.contributions) :=
  p.concludes_step l r.inquiry.query r.contributions

lemma Underway.steady (h : Underway l i rounds p) : Steady l rounds p := by
  induction h with
  | start _ => exact .start l
  | @again rounds p p' r readings h hround hanswer hstep ih =>
    have hnext := p.concludes l r
    rw [hstep] at hnext
    cases hnext with
    | renewed hruns hnew => exact ih.renewed h hround (hround.not_fails hanswer hruns) hnew
    | idle hruns hnone hproof hstale =>
      exact ih.idle h hround (hround.not_fails hanswer hruns) hnone hproof hstale

/-- A search that ends behind a round with what it has found ends there for a reason. -/
lemma Underway.ends_of_finish (h : Underway l i rounds p)
    (hstep : p.step l r.inquiry.query r.contributions = .finish (.ok found)) :
    Ends l (rounds ++ [r]) rounds.length r := by
  have hnext := p.concludes l r
  rw [hstep] at hnext
  rw [h.steady.ends_iff h r]
  cases hnext with
  | stopped herrors hall hsome =>
    have hall : r.Fails := Round.length_errors_tally_iff.1 hall
    rw [Round.found_tally_of_fails hall] at hsome
    exact .inl ⟨hall, hsome⟩
  | exhausted hruns hnone hproof => exact .inr ⟨hnone, .inl hproof⟩
  | tired hruns hnone hproof hstale =>
    have hlt := h.steady.stale_lt
    exact .inr ⟨hnone, .inr (by omega)⟩

/-- A search that ends behind a round with an error has only begun: every run has failed, and the
error is that of the first one. -/
lemma Underway.fails_of_finish (h : Underway l i rounds p) (hround : Asks l i p r)
    (hanswer : r.answer = .ok readings) {error : SearchError}
    (hstep : p.step l r.inquiry.query r.contributions = .finish (.error error)) :
    rounds = [] ∧ r.Fails ∧ r.contributions.head? = some (.failed error) := by
  have hnext := p.concludes l r
  rw [hstep] at hnext
  cases hnext with
  | broken herrors hall hnone =>
    have hall : r.Fails := Round.length_errors_tally_iff.1 hall
    rw [Round.found_tally_of_fails hall] at hnone
    obtain ⟨first, hfirst, hstep'⟩ := hround.step_of_fails hanswer hall
    rw [hstep, hnone] at hstep'
    obtain rfl : error = first := by simpa using hstep'
    refine ⟨by_contra fun hne => h.steady.found_ne_nil hne hnone, hall, hfirst⟩

/-! ### Histories -/

namespace Carried

variable (h : Carried l i rounds)

include h

/-- A search that goes on behind a place is steady there. -/
lemma steady_take (hplace : place < rounds.length) :
    ∃ p, p.found = foundBefore l rounds place ∧ Steady l (rounds.take place) p := by
  obtain ⟨p, hunderway, -⟩ := h.exists_asks (List.getElem?_eq_getElem hplace)
  exact ⟨p, hunderway.found_eq, hunderway.steady⟩

/-- Behind its first round, a search has found something. -/
lemma foundBefore_ne_nil (hfirst : 0 < place) (hplace : place < rounds.length) :
    foundBefore l rounds place ≠ [] := by
  obtain ⟨p, hfound, hsteady⟩ := h.steady_take hplace
  refine hfound ▸ hsteady.found_ne_nil fun hnil => ?_
  have hlength := congrArg List.length hnil
  rw [List.length_take, List.length_nil] at hlength
  omega

/-- No round but the last one is one that ends a search. -/
lemma not_ends (hplace : place + 1 < rounds.length) (hr : rounds[place]? = some r) :
    ¬ Ends l rounds place r := by
  obtain ⟨p, -, hsteady⟩ := h.steady_take hplace
  have hlt : place < (rounds.take (place + 1)).length := by
    rw [List.length_take]
    omega
  rw [← List.take_append_drop (place + 1) rounds, ends_append_iff hlt]
  refine hsteady.not_ends place r ?_
  rw [List.getElem?_take_of_lt (Nat.lt_succ_self place), hr]

end Carried

/-- Whether an error comes from a run: the verifier has not answered, or the witness cannot be
read. -/
def SearchError.IsOfRun : SearchError → Prop
  | .tool _ | .trace _ => True
  | _ => False

lemma Round.isOfRun_of_head? {error : SearchError}
    (h : r.contributions.head? = some (.failed error)) : error.IsOfRun := by
  obtain ⟨reading, -, hreading⟩ := List.mem_map.1 (List.mem_of_head? h)
  rcases Reading.contribution_eq_failed_iff.1 hreading with ⟨_, -, rfl⟩ | ⟨_, -, rfl⟩ <;> trivial

/-- A search with an error of a run ends behind its first round, in which every run fails, and the
error is that of the first run. -/
lemma Ended.fails_of_error {error : SearchError} (h : Ended l i rounds (.error error))
    (hcarried : ∀ r ∈ rounds, ∃ readings, r.answer = .ok readings) (herror : error.IsOfRun) :
    ∃ r, rounds[0]? = some r ∧ r.Fails ∧ r.contributions.head? = some (.failed error) := by
  cases h with
  | unsupported _ => cases herror
  | @refused rounds p r error h hround hanswer =>
    obtain ⟨readings, hok⟩ := hcarried r List.mem_concat_self
    rw [hanswer] at hok
    cases hok
  | @finished rounds p r readings answer h hround hanswer hstep =>
    obtain ⟨rfl, hall, hfirst⟩ := h.fails_of_finish hround hanswer hstep
    exact ⟨r, rfl, hall, hfirst⟩

/-- If every run of the first round fails, a search ends with the error of the first run. -/
lemma Course.error_of_fails {n : Nat} {answer : Option Answer} (h : Course l i n rounds answer)
    (hcarried : ∀ r ∈ rounds, ∃ readings, r.answer = .ok readings) (hr : rounds[0]? = some r)
    (hall : r.Fails) :
    ∃ error, r.contributions.head? = some (.failed error) ∧ answer = some (.error error) := by
  have hmem : r ∈ rounds := List.mem_of_getElem? hr
  cases answer with
  | none =>
    obtain ⟨-, p, h, -⟩ := h
    exact absurd hall (h.steady.not_fails r hmem)
  | some answer =>
    cases h with
    | unsupported _ => cases hmem
    | enough h _ => exact absurd hall (h.steady.not_fails r hmem)
    | @refused rounds p r' error h hround hanswer =>
      obtain ⟨readings, hok⟩ := hcarried r' List.mem_concat_self
      rw [hanswer] at hok
      cases hok
    | @finished rounds p r' readings answer h hround hanswer hstep =>
      -- a round that fails is the last one, and here it is also the first
      rcases rounds with _ | ⟨first, rounds⟩
      · obtain rfl : r' = r := by simpa using hr
        obtain ⟨error, hfirst, hstep'⟩ := hround.step_of_fails hanswer hall
        have hnone : p.found = [] := h.found_eq
        rw [hstep, hnone] at hstep'
        obtain rfl : answer = .error error := Step.finish.inj hstep'
        exact ⟨error, hfirst, rfl⟩
      · obtain rfl : first = r := by simpa using hr
        exact absurd hall (h.steady.not_fails first List.mem_cons_self)

/-- A search that ends with too few patterns ends behind a round that ends it. -/
lemma Ended.ends_of_ok (h : Ended l i rounds (.ok found))
    (hfew : l.reached found.length = false) :
    ∃ before r, rounds = before ++ [r] ∧ Ends l rounds before.length r := by
  cases h with
  | enough h henough =>
    rw [hfew] at henough
    cases henough
  | @finished rounds p r readings answer h hround hanswer hstep =>
    exact ⟨rounds, r, rfl, h.ends_of_finish hstep⟩

/-- What a round contributes first comes from the run for the first kind of witness. -/
lemma Round.exists_first_reading {s : Search} {readings : List Reading} {c : Contribution}
    (hok : r.answer = .ok readings) (hanswers : s.Answers r.answer)
    (h : r.contributions.head? = some c) :
    ∃ reading kind, r.readings.head? = some reading ∧ s.roundDiagnostics.head? = some kind ∧
      Search.Run.IsFor s reading.run kind ∧ reading.contribution r.inquiry.focus = c := by
  have hreadings : r.readings = readings := by rw [Round.readings, hok]
  rw [hok, Search.Answers] at hanswers
  rw [Round.contributions, hreadings, List.head?_map, Option.map_eq_some_iff] at h
  rw [hreadings]
  obtain ⟨reading, hhead, hc⟩ := h
  generalize s.roundDiagnostics = kinds at hanswers ⊢
  cases hanswers with
  | nil => cases hhead
  | cons hfor _ =>
    cases hhead
    exact ⟨reading, _, rfl, rfl, hfor, hc⟩

/-- What ends a search whose rounds all come to their runs. Behind its first round it has found
something. It ends with an error of a run if and only if every run of the first round fails, and
then with the error of the first run in the order of the kinds of witnesses. If it ends with too
few patterns, its last round is one that ends it, and in any case no round before the last one
is. -/
theorem Search.findAll_ending (s : Search) (i : Inquiry) (limit : Option Nat) (n : Nat) (w : World)
    (hcarried : ∀ r ∈ s.history i limit n w, ∃ readings, r.answer = .ok readings) :
    (∀ place, 0 < place → place < (s.history i limit n w).length →
      foundBefore ⟨limit, s.maxStale⟩ (s.history i limit n w) place ≠ []) ∧
    ((∃ error : SearchError, error.IsOfRun ∧
        (s.findAll i limit n w).1 = some (.error error)) ↔
      ∃ r, (s.history i limit n w)[0]? = some r ∧ r.Fails) ∧
    (∀ error : SearchError, error.IsOfRun → (s.findAll i limit n w).1 = some (.error error) →
      ∃ r reading kind, (s.history i limit n w)[0]? = some r ∧ r.readings.head? = some reading ∧
        s.roundDiagnostics.head? = some kind ∧ Run.IsFor s reading.run kind ∧
        reading.contribution r.inquiry.focus = .failed error) ∧
    (∀ found, (s.findAll i limit n w).1 = some (.ok found) →
      (∀ max, limit = some max → found.length < max) →
      ∃ before r, s.history i limit n w = before ++ [r] ∧
        Ends ⟨limit, s.maxStale⟩ (s.history i limit n w) before.length r) ∧
    ∀ place r, place + 1 < (s.history i limit n w).length →
      (s.history i limit n w)[place]? = some r →
      ¬ Ends ⟨limit, s.maxStale⟩ (s.history i limit n w) place r := by
  have hcourse := s.course_history i limit n w
  have hanswers := s.answers_history i limit n w
  generalize s.history i limit n w = rounds at hcarried hcourse hanswers ⊢
  generalize (s.findAll i limit n w).1 = answer at hcourse ⊢
  refine ⟨fun place => hcourse.carried.foundBefore_ne_nil, ⟨?_, ?_⟩, ?_, ?_, ?_⟩
  · rintro ⟨error, herror, rfl⟩
    obtain ⟨r, hr, hall, -⟩ := Ended.fails_of_error hcourse hcarried herror
    exact ⟨r, hr, hall⟩
  · rintro ⟨r, hr, hall⟩
    obtain ⟨error, hfirst, hanswer⟩ := hcourse.error_of_fails hcarried hr hall
    exact ⟨error, Round.isOfRun_of_head? hfirst, hanswer⟩
  · rintro error herror rfl
    obtain ⟨r, hr, -, hfirst⟩ := Ended.fails_of_error hcourse hcarried herror
    have hmem : r ∈ rounds := List.mem_of_getElem? hr
    obtain ⟨readings, hok⟩ := hcarried r hmem
    obtain ⟨reading, kind, hfailed⟩ := Round.exists_first_reading hok (hanswers r hmem) hfirst
    exact ⟨r, reading, kind, hr, hfailed⟩
  · -- with fewer patterns than the limit it is not the limit that ends the search
    rintro found rfl hfew
    refine Ended.ends_of_ok hcourse ?_
    rw [Bool.eq_false_iff, ne_eq, Limits.reached_iff]
    rintro ⟨max, hmax, hle⟩
    exact absurd (hfew max hmax) (Nat.not_lt_of_le hle)
  · intro place r hplace hr
    exact hcourse.carried.not_ends hplace hr

lemma Round.exists_readings_of_isIdeal {words : List (List String)} (h : r.isIdeal words = true) :
    ∃ readings, r.answer = .ok readings := by
  unfold isIdeal at h
  split at h
  · next readings hanswer => exact ⟨readings, hanswer⟩
  · cases h

/-- The search of the sample for two kinds of witnesses ends behind its third round, with two
patterns found before, and none of the rounds before that one ends it. -/
theorem Search.ending_sample : ∃ first second last,
    Sample.pairedSearch.history Sample.pairedInquiry none 3 Sample.roundaboutWorld =
        [first, second, last] ∧
      ¬ Ends ⟨none, 3⟩ [first, second, last] 0 first ∧
      ¬ Ends ⟨none, 3⟩ [first, second, last] 1 second ∧
      Ends ⟨none, 3⟩ [first, second, last] 2 last := by
  obtain ⟨hanswer, hlength, hideal⟩ := Sample.pairedSearch_run
  obtain ⟨-, -, -, hends, hnot⟩ := Search.findAll_ending Sample.pairedSearch Sample.pairedInquiry
    none 3 Sample.roundaboutWorld
    fun r hr => Round.exists_readings_of_isIdeal (List.all_eq_true.1 hideal r hr)
  obtain ⟨before, r, hhistory, hend⟩ := hends Sample.bothPatterns hanswer (by simp)
  generalize Sample.pairedSearch.history _ _ _ _ = rounds at hlength hhistory hend hnot ⊢
  obtain ⟨first, second, last, rfl⟩ := List.length_eq_three.1 hlength
  obtain ⟨rfl, hlast⟩ := List.append_inj' (show [first, second] ++ _ = _ from hhistory) rfl
  obtain rfl := List.singleton_inj.1 hlast
  exact ⟨first, second, last, rfl, hnot 0 first (by simp) rfl, hnot 1 second (by simp) rfl, hend⟩

end TimedPatterns
