import Mathlib.Tactic
import TimedPatterns.Search.Exploration

/-!
# What a round adds

The patterns of a round are put behind those that were found before it, in the order of its runs.
A pattern is left out if there are enough patterns, or if one of them has its labels. So labels
are never found twice, and those of a pattern that was contributed are there in the end unless
there are as many patterns as were asked for.

What a search does behind a round is one of six things, `Tally.Concludes`.
-/

namespace TimedPatterns

/-- The label sequences of some patterns. -/
def labelsOf (found : List Discovered) : List (List String) := found.map (·.pattern.actions)

@[simp] lemma labelsOf_nil : labelsOf [] = [] := rfl

@[simp] lemma labelsOf_append (found more : List Discovered) :
    labelsOf (found ++ more) = labelsOf found ++ labelsOf more := List.map_append

@[simp] lemma length_labelsOf (found : List Discovered) :
    (labelsOf found).length = found.length := List.length_map _

lemma mem_labelsOf {found : List Discovered} {u : List String} :
    u ∈ labelsOf found ↔ ∃ d ∈ found, d.pattern.actions = u := List.mem_map

lemma encard_labelsOf {found : List Discovered} (h : (labelsOf found).Nodup) :
    {u | u ∈ labelsOf found}.encard = found.length := by
  rw [← List.coe_toFinset, Set.encard_coe_eq_coe_finsetCard, List.toFinset_card_of_nodup h,
    length_labelsOf]

lemma Limits.reached_iff {l : Limits} {count : Nat} :
    l.reached count = true ↔ ∃ max, l.patterns = some max ∧ max ≤ count := by
  unfold Limits.reached
  cases l.patterns <;> simp

lemma Limits.reached_of_le (l : Limits) {count more : Nat} (h : l.reached count = true)
    (hle : count ≤ more) : l.reached more = true := by
  obtain ⟨max, hmax, hcount⟩ := Limits.reached_iff.1 h
  exact Limits.reached_iff.2 ⟨max, hmax, hcount.trans hle⟩

/-- The error of a run that failed. -/
def Contribution.error? : Contribution → Option SearchError
  | .failed error => some error
  | _ => none

@[simp] lemma Contribution.error?_eq_some_iff {c : Contribution} {error : SearchError} :
    c.error? = some error ↔ c = .failed error := by
  cases c <;> simp [error?]

lemma Contribution.isSome_error?_iff {c : Contribution} :
    c.error?.isSome ↔ ∃ error, c = .failed error := by
  cases c <;> simp [error?]

namespace Tally

variable {l : Limits} {query : Query} {t : Tally} {found : List Discovered}
  {contributions : List Contribution} {word : TimedWord}

/-! ### One run -/

/-- A pattern is left out, or it is put behind the others. -/
lemma add_pattern (l : Limits) (query : Query) (t : Tally) (word : TimedWord) :
    ((l.reached t.found.length = true ∨ word.actions ∈ labelsOf t.found) ∧
        t.add l query (.pattern word) = t) ∨
      (l.reached t.found.length = false ∧ word.actions ∉ labelsOf t.found ∧
        t.add l query (.pattern word) =
          { t with found := t.found ++ [⟨query, word⟩], fresh := t.fresh + 1 }) := by
  have hany : t.found.any (·.pattern.actions == word.actions) = true ↔
      word.actions ∈ labelsOf t.found := by
    simp [mem_labelsOf]
  simp only [add]
  by_cases hskip : l.reached t.found.length = true ∨ word.actions ∈ labelsOf t.found
  · refine .inl ⟨hskip, ?_⟩
    rw [if_pos]
    rwa [Bool.or_eq_true, hany]
  · refine .inr ⟨by simpa using (not_or.1 hskip).1, (not_or.1 hskip).2, ?_⟩
    rw [if_neg]
    rwa [Bool.or_eq_true, hany]

/-- What a run adds to the patterns: nothing, or a pattern that is new. -/
lemma found_add (l : Limits) (query : Query) (t : Tally) (c : Contribution) :
    (t.add l query c).found = t.found ∨
      ∃ word, c = .pattern word ∧ l.reached t.found.length = false ∧
        word.actions ∉ labelsOf t.found ∧
        (t.add l query c).found = t.found ++ [⟨query, word⟩] := by
  cases c with
  | pattern word =>
    rcases add_pattern l query t word with ⟨-, h⟩ | ⟨hmore, hnew, h⟩
    · exact .inl (congrArg _ h)
    · exact .inr ⟨word, rfl, hmore, hnew, congrArg _ h⟩
  | unsatisfied => exact .inl rfl
  | failed error => exact .inl rfl

/-- Labels that are not found twice are not found twice behind another run. -/
lemma nodup_add (h : (labelsOf t.found).Nodup) (c : Contribution) :
    (labelsOf (t.add l query c).found).Nodup := by
  rcases found_add l query t c with hsame | ⟨word, -, -, hnew, hadd⟩
  · rwa [hsame]
  · rw [hadd, labelsOf_append, List.nodup_append]
    refine ⟨h, List.nodup_singleton _, ?_⟩
    rintro u hu v hv rfl
    rw [List.mem_singleton.1 hv] at hu
    exact hnew hu

lemma length_add_le {max : Nat} (hmax : l.patterns = some max) (h : t.found.length ≤ max)
    (c : Contribution) : (t.add l query c).found.length ≤ max := by
  rcases found_add l query t c with hsame | ⟨word, -, hmore, -, hadd⟩
  · rwa [hsame]
  · have hlt : t.found.length < max := by
      by_contra hle
      rw [Limits.reached_iff.2 ⟨max, hmax, Nat.le_of_not_lt hle⟩] at hmore
      cases hmore
    rw [hadd, List.length_append]
    exact hlt

/-- A pattern that is added is counted. -/
lemma length_add_add_fresh (l : Limits) (query : Query) (t : Tally) (c : Contribution) :
    (t.add l query c).found.length + t.fresh = t.found.length + (t.add l query c).fresh := by
  cases c with
  | pattern word =>
    rcases add_pattern l query t word with ⟨-, h⟩ | ⟨-, -, h⟩
    · rw [h]
    · rw [h, List.length_append, List.length_singleton, Nat.add_assoc, Nat.add_comm 1]
  | unsatisfied => rfl
  | failed error => rfl

lemma errors_add (l : Limits) (query : Query) (t : Tally) (c : Contribution) :
    (t.add l query c).errors = t.errors ++ c.error?.toList := by
  cases c with
  | pattern word =>
    have hsame : (t.add l query (.pattern word)).errors = t.errors := by
      rcases add_pattern l query t word with ⟨-, h⟩ | ⟨-, -, h⟩ <;> rw [h]
    exact hsame.trans (List.append_nil _).symm
  | unsatisfied => exact (List.append_nil _).symm
  | failed error => rfl

lemma unsatisfied_add (l : Limits) (query : Query) (t : Tally) (c : Contribution) :
    (t.add l query c).unsatisfied = true ↔ t.unsatisfied = true ∨ c = .unsatisfied := by
  cases c with
  | pattern word =>
    rcases add_pattern l query t word with ⟨-, h⟩ | ⟨-, -, h⟩ <;> simp [h]
  | unsatisfied => simp [add]
  | failed error => simp [add]

lemma reached_or_mem_add (l : Limits) (query : Query) (t : Tally) (word : TimedWord) :
    l.reached (t.add l query (.pattern word)).found.length = true ∨
      word.actions ∈ labelsOf (t.add l query (.pattern word)).found := by
  rcases add_pattern l query t word with ⟨henough | hold, hadd⟩ | ⟨-, -, hadd⟩
  · rw [hadd]
    exact .inl henough
  · rw [hadd]
    exact .inr hold
  · rw [hadd]
    exact .inr (by simp [mem_labelsOf])

/-! ### All runs of a round -/

/-- Add up what some runs contribute to what there is. -/
def addAll (l : Limits) (query : Query) (t : Tally) (contributions : List Contribution) : Tally :=
  contributions.foldl (add l query) t

@[simp] lemma addAll_nil : t.addAll l query [] = t := rfl

@[simp] lemma addAll_cons (c : Contribution) : t.addAll l query (c :: contributions) =
    (t.add l query c).addAll l query contributions := rfl

lemma ofRound_eq_addAll :
    ofRound l query found contributions = addAll l query { found } contributions := rfl

/-- The patterns that are added stand behind the others, with the query of the round. -/
lemma exists_fresh (l : Limits) (query : Query) (t : Tally) (contributions : List Contribution) :
    ∃ fresh, (t.addAll l query contributions).found = t.found ++ fresh ∧
      ∀ d ∈ fresh, d.query = query ∧ .pattern d.pattern ∈ contributions := by
  induction contributions generalizing t with
  | nil => exact ⟨[], by simp⟩
  | cons c contributions ih =>
    obtain ⟨fresh, hfound, hfresh⟩ := ih (t.add l query c)
    have hlater : ∀ d ∈ fresh, d.query = query ∧ .pattern d.pattern ∈ c :: contributions :=
      fun d hd => ⟨(hfresh d hd).1, List.mem_cons_of_mem _ (hfresh d hd).2⟩
    rw [addAll_cons]
    rcases found_add l query t c with hsame | ⟨word, rfl, -, -, hadd⟩
    · exact ⟨fresh, by rwa [hsame] at hfound, hlater⟩
    · refine ⟨⟨query, word⟩ :: fresh, ?_, List.forall_mem_cons.2 ⟨?_, hlater⟩⟩
      · rwa [hadd, List.append_assoc] at hfound
      · exact ⟨rfl, List.mem_cons_self⟩

lemma nodup_addAll (h : (labelsOf t.found).Nodup) :
    (labelsOf (t.addAll l query contributions).found).Nodup := by
  induction contributions generalizing t with
  | nil => exact h
  | cons c contributions ih => exact ih (nodup_add h c)

lemma length_addAll_le {max : Nat} (hmax : l.patterns = some max) (h : t.found.length ≤ max) :
    (t.addAll l query contributions).found.length ≤ max := by
  induction contributions generalizing t with
  | nil => exact h
  | cons c contributions ih => exact ih (length_add_le hmax h c)

/-- The labels of a pattern that was contributed are found, unless there are enough patterns. -/
lemma reached_or_mem_labelsOf (l : Limits) (query : Query) (t : Tally)
    (h : .pattern word ∈ contributions) :
    l.reached (t.addAll l query contributions).found.length = true ∨
      word.actions ∈ labelsOf (t.addAll l query contributions).found := by
  induction contributions generalizing t with
  | nil => cases h
  | cons c contributions ih =>
    rw [addAll_cons]
    rcases List.mem_cons.1 h with rfl | hlater
    · obtain ⟨fresh, hfound, -⟩ :=
        exists_fresh l query (t.add l query (.pattern word)) contributions
      rw [hfound, labelsOf_append, List.length_append]
      exact (reached_or_mem_add l query t word).imp
        (fun henough => l.reached_of_le henough (Nat.le_add_right _ _)) (List.mem_append_left _)
    · exact ih (t.add l query c) hlater

/-- The patterns become more if one of those that are contributed is new. -/
lemma length_lt_addAll (query : Query) (hmore : l.reached t.found.length = false)
    (hnew : word.actions ∉ labelsOf t.found) (h : .pattern word ∈ contributions) :
    t.found.length < (t.addAll l query contributions).found.length := by
  obtain ⟨fresh, hfound, -⟩ := exists_fresh l query t contributions
  have hafter := reached_or_mem_labelsOf l query t h
  rw [hfound] at hafter ⊢
  rcases fresh with _ | ⟨d, fresh⟩
  · rw [List.append_nil, hmore] at hafter
    rcases hafter with h | h
    · cases h
    · exact absurd h hnew
  · rw [List.length_append]
    exact Nat.lt_add_of_pos_right (Nat.succ_pos _)

/-- Every pattern that is added is counted. -/
lemma length_addAll_add_fresh (l : Limits) (query : Query) (t : Tally)
    (contributions : List Contribution) :
    (t.addAll l query contributions).found.length + t.fresh =
      t.found.length + (t.addAll l query contributions).fresh := by
  induction contributions generalizing t with
  | nil => rfl
  | cons c contributions ih =>
    have hadd := length_add_add_fresh l query t c
    have hrest := ih (t.add l query c)
    rw [addAll_cons]
    omega

/-- The errors are those of the runs that failed, in their order. -/
lemma errors_addAll_eq (l : Limits) (query : Query) (t : Tally)
    (contributions : List Contribution) :
    (t.addAll l query contributions).errors =
      t.errors ++ contributions.filterMap (·.error?) := by
  induction contributions generalizing t with
  | nil => simp
  | cons c contributions ih =>
    rw [addAll_cons, ih, errors_add, List.append_assoc]
    cases h : c.error? <;> simp [h]

/-- Without a run that fails there are no errors. -/
lemma errors_addAll (h : ∀ error, .failed error ∉ contributions) :
    (t.addAll l query contributions).errors = t.errors := by
  rw [errors_addAll_eq, List.append_right_eq_self, List.filterMap_eq_nil_iff]
  intro c hc
  cases c with
  | pattern word => rfl
  | unsatisfied => rfl
  | failed error => exact absurd hc (h error)

/-- There is a proof if one of the runs gives it. -/
lemma unsatisfied_addAll (l : Limits) (query : Query) (t : Tally)
    (contributions : List Contribution) :
    (t.addAll l query contributions).unsatisfied = true ↔
      t.unsatisfied = true ∨ .unsatisfied ∈ contributions := by
  induction contributions generalizing t with
  | nil => simp
  | cons c contributions ih =>
    rw [addAll_cons, ih, unsatisfied_add, List.mem_cons, or_assoc, @eq_comm _ c]

/-- Where every run proves that there is nothing to find, nothing is added but the proof. -/
lemma addAll_of_unsatisfied (h : ∀ c ∈ contributions, c = .unsatisfied) (hne : contributions ≠ []) :
    t.addAll l query contributions = { t with unsatisfied := true } := by
  induction contributions generalizing t with
  | nil => exact absurd rfl hne
  | cons c contributions ih =>
    obtain rfl := h c List.mem_cons_self
    rcases contributions with _ | ⟨c, contributions⟩
    · rfl
    · exact ih (fun c hc => h c (List.mem_cons_of_mem _ hc)) (List.cons_ne_nil _ _)
        (t := { t with unsatisfied := true })

/-! ### Behind a round -/

/-- What a search does behind a round with a number of runs. -/
inductive Concludes (l : Limits) (runs stale : Nat) (t : Tally) : Step → Prop
  /-- Every run failed, and nothing has been found. -/
  | broken {error : SearchError} {errors : List SearchError} (herrors : t.errors = error :: errors)
      (hall : t.errors.length = runs) (hnone : t.found = []) :
      Concludes l runs stale t (.finish (.error error))
  /-- Every run failed, but something has been found. -/
  | stopped (herrors : t.errors ≠ []) (hall : t.errors.length = runs) (hsome : t.found ≠ []) :
      Concludes l runs stale t (.finish (.ok t.found))
  /-- There is a new pattern. -/
  | renewed (hruns : t.errors = [] ∨ t.errors.length ≠ runs) (hfresh : 0 < t.fresh) :
      Concludes l runs stale t (.again ⟨t.found, 0⟩)
  /-- There is no new pattern, but a proof that there is nothing to find. -/
  | exhausted (hruns : t.errors = [] ∨ t.errors.length ≠ runs) (hfresh : t.fresh = 0)
      (hproof : t.unsatisfied = true) : Concludes l runs stale t (.finish (.ok t.found))
  /-- There is no new pattern, for the last time. -/
  | tired (hruns : t.errors = [] ∨ t.errors.length ≠ runs) (hfresh : t.fresh = 0)
      (hproof : t.unsatisfied = false) (hstale : l.maxStale ≤ stale + 1) :
      Concludes l runs stale t (.finish (.ok t.found))
  /-- There is no new pattern, but there may be one in the next round. -/
  | idle (hruns : t.errors = [] ∨ t.errors.length ≠ runs) (hfresh : t.fresh = 0)
      (hproof : t.unsatisfied = false) (hstale : stale + 1 < l.maxStale) :
      Concludes l runs stale t (.again ⟨t.found, stale + 1⟩)

lemma concludes_proceed {runs stale : Nat} (hruns : t.errors = [] ∨ t.errors.length ≠ runs) :
    t.Concludes l runs stale (t.proceed l stale) := by
  unfold proceed
  split
  · next hfresh => exact .renewed hruns hfresh
  · next hfresh =>
    have hfresh : t.fresh = 0 := Nat.eq_zero_of_not_pos hfresh
    split
    · next hproof => exact .exhausted hruns hfresh hproof
    · next hproof =>
      have hproof : t.unsatisfied = false := by simpa using hproof
      split
      · next hstale => exact .tired hruns hfresh hproof hstale
      · next hstale => exact .idle hruns hfresh hproof (Nat.lt_of_not_le hstale)

lemma concludes_step (l : Limits) (runs stale : Nat) (t : Tally) :
    t.Concludes l runs stale (t.step l runs stale) := by
  unfold step
  split
  · next herrors => exact concludes_proceed (.inl herrors)
  · next error errors herrors =>
    split
    · next hall =>
      split
      · next hnone => exact .broken herrors hall (List.isEmpty_iff.1 hnone)
      · next hsome =>
        exact .stopped (herrors ▸ List.cons_ne_nil _ _) hall (fun h => hsome (List.isEmpty_iff.2 h))
    · next hall => exact concludes_proceed (.inr hall)

lemma step_of_fresh {runs stale : Nat} (herrors : t.errors = []) (hfresh : 0 < t.fresh) :
    t.step l runs stale = .again ⟨t.found, 0⟩ := by
  simp [step, proceed, herrors, hfresh]

lemma step_of_unsatisfied {runs stale : Nat} (herrors : t.errors = []) (hfresh : t.fresh = 0)
    (hproof : t.unsatisfied = true) : t.step l runs stale = .finish (.ok t.found) := by
  simp [step, proceed, herrors, hfresh, hproof]

end Tally

namespace Progress

variable {l : Limits} {query : Query} {p p' : Progress} {contributions : List Contribution}
  {found : List Discovered}

lemma concludes_step (p : Progress) (l : Limits) (query : Query)
    (contributions : List Contribution) :
    (Tally.ofRound l query p.found contributions).Concludes l contributions.length p.stale
      (p.step l query contributions) :=
  Tally.concludes_step l contributions.length p.stale (Tally.ofRound l query p.found contributions)

/-- A search goes on with the patterns of the round. -/
lemma found_of_step_eq_again (h : p.step l query contributions = .again p') :
    p'.found = (Tally.ofRound l query p.found contributions).found := by
  have hstep := p.concludes_step l query contributions
  rw [h] at hstep
  cases hstep <;> rfl

/-- A search ends with the patterns of the round. -/
lemma found_of_step_eq_finish (h : p.step l query contributions = .finish (.ok found)) :
    found = (Tally.ofRound l query p.found contributions).found := by
  have hstep := p.concludes_step l query contributions
  rw [h] at hstep
  cases hstep <;> rfl

end Progress

end TimedPatterns
