import TimedPatterns.Proofs.Search.Bound

/-!
# Searches with a limit

A limit to the patterns ends a search early, and changes nothing else. Round by round, the search
stands where the one without a limit stands, but for the patterns beyond the limit; and when there
are any, it is at its end.

So with a limit a search finds the first of the patterns that are found without one. This is so in
the world in which the search without a limit is carried out, whatever the verifier does there, and
in any other world if the verifier gives the same replies to the same questions.
-/

namespace TimedPatterns

variable {max maxStale : Nat} {query : Query} {c c' : Contribution}
  {contributions contributions' : List Contribution}

/-! ### Replies -/

deriving instance DecidableEq for Trace

/-- What a run comes to: it shows a trace, or proves that there is nothing to find, or fails,
whatever its error says. -/
inductive Reply where
  | shows (trace : Trace)
  | refutes
  | fails
  deriving DecidableEq

def Reading.reply (r : Reading) : Reply :=
  match r.witness, r.verdict with
  | some (.ok trace), _ => .shows trace
  | some (.error _), _ => .fails
  | none, .failure _ => .fails
  | none, _ => .refutes

/-- Contributions that differ in what their errors say at most. -/
inductive Contribution.Alike : Contribution → Contribution → Prop
  | pattern (word : TimedWord) : Alike (.pattern word) (.pattern word)
  | unsatisfied : Alike .unsatisfied .unsatisfied
  | failed (error error' : SearchError) : Alike (.failed error) (.failed error')

/-- What a run with a given reply contributes. -/
inductive Reply.Contributes (focus : Option (List String)) : Reply → Contribution → Prop
  | shows (trace : Trace) :
      Contributes focus (.shows trace) (.pattern (trace.focus focus).toTimedWord)
  | refutes : Contributes focus .refutes .unsatisfied
  | fails (error : SearchError) : Contributes focus .fails (.failed error)

lemma Reading.contributes (r : Reading) (focus : Option (List String)) :
    r.reply.Contributes focus (r.contribution focus) := by
  unfold reply contribution
  cases r.witness with
  | some witness =>
    cases witness with
    | ok trace => exact .shows trace
    | error error => exact .fails _
  | none =>
    cases r.verdict with
    | satisfied => exact .refutes
    | notSatisfied => exact .refutes
    | failure complaint => exact .fails _

/-- Runs with the same reply contribute the same, but for what errors say. -/
lemma Reply.Contributes.alike {reply : Reply} {focus : Option (List String)}
    (h : reply.Contributes focus c) (h' : reply.Contributes focus c') : c.Alike c' := by
  cases h with
  | shows trace =>
    cases h'
    exact .pattern _
  | refutes =>
    cases h'
    exact .unsatisfied
  | fails error =>
    cases h'
    exact .failed _ _

/-! ### Rounds -/

namespace Tally

/-- What comes of a round without a limit, and with one: the patterns beyond the limit are missing,
and nothing else. -/
structure Limited (max : Nat) (t t' : Tally) : Prop where
  found_eq : t'.found = t.found.take max
  unsatisfied_eq : t'.unsatisfied = t.unsatisfied
  errors_eq : t'.errors.length = t.errors.length

variable {t t' : Tally}

namespace Limited

lemma add (h : Limited max t t') (hc : c.Alike c') :
    Limited max (t.add ⟨none, maxStale⟩ query c) (t'.add ⟨some max, maxStale⟩ query c') := by
  cases hc with
  | unsatisfied => exact ⟨h.found_eq, rfl, h.errors_eq⟩
  | failed error error' =>
    refine ⟨h.found_eq, h.unsatisfied_eq, ?_⟩
    simp only [Tally.add, List.length_append, h.errors_eq, List.length_singleton]
  | pattern word =>
    rcases Nat.lt_or_ge t.found.length max with hlt | hge
    · -- there is room for the pattern, and the labels of the same patterns are there
      have hsame : t'.found = t.found := by rw [h.found_eq, List.take_of_length_le hlt.le]
      have hopen : Limits.reached ⟨none, maxStale⟩ t.found.length = false := rfl
      have hmore : Limits.reached ⟨some max, maxStale⟩ t.found.length = false :=
        decide_eq_false (Nat.not_le_of_lt hlt)
      simp only [Tally.add, hsame, hopen, hmore]
      split
      · exact h
      · exact ⟨(List.take_of_length_le (by simpa using hlt)).symm, h.unsatisfied_eq, h.errors_eq⟩
    · -- the limit is reached, and a pattern that is found is beyond it
      have hfull : Limits.reached ⟨some max, maxStale⟩ t'.found.length = true := by
        apply decide_eq_true
        rw [h.found_eq, List.length_take_of_le hge]
      simp only [Tally.add, hfull, Bool.true_or, if_true]
      split
      · exact h
      · refine ⟨?_, h.unsatisfied_eq, h.errors_eq⟩
        rw [List.take_append_of_le_length hge, h.found_eq]

lemma addAll (h : Limited max t t')
    (hcs : List.Forall₂ Contribution.Alike contributions contributions') :
    Limited max (t.addAll ⟨none, maxStale⟩ query contributions)
      (t'.addAll ⟨some max, maxStale⟩ query contributions') := by
  induction hcs generalizing t t' with
  | nil => exact h
  | cons hc _ ih => exact ih (h.add hc)

end Limited

end Tally

/-- How a search goes on behind a round without a limit, and with one. -/
inductive Step.Limited (max : Nat) : Step → Step → Prop
  | again (found : List Discovered) (stale : Nat) :
      Limited max (.again ⟨found, stale⟩) (.again ⟨found.take max, stale⟩)
  | finish (found : List Discovered) :
      Limited max (.finish (.ok found)) (.finish (.ok (found.take max)))
  | broken (error error' : SearchError) :
      Limited max (.finish (.error error)) (.finish (.error error'))

namespace Tally.Limited

variable {t t' : Tally} {base runs stale : Nat}

section Fresh

variable (h : Limited max t t') (hbase : base < max)
  (hfresh : base + t.fresh = t.found.length) (hfresh' : base + t'.fresh = t'.found.length)

include h hbase hfresh hfresh'

lemma fresh_pos_iff : 0 < t'.fresh ↔ 0 < t.fresh := by
  rw [h.found_eq, List.length_take] at hfresh'
  omega

lemma proceed : Step.Limited max (t.proceed ⟨none, maxStale⟩ stale)
    (t'.proceed ⟨some max, maxStale⟩ stale) := by
  have hpos := h.fresh_pos_iff hbase hfresh hfresh'
  simp only [Tally.proceed, gt_iff_lt, hpos, h.unsatisfied_eq, h.found_eq]
  split
  · exact .again _ _
  · split
    · exact .finish _
    · split
      · exact .finish _
      · exact .again _ _

lemma step : Step.Limited max (t.step ⟨none, maxStale⟩ runs stale)
    (t'.step ⟨some max, maxStale⟩ runs stale) := by
  have hproceed : Step.Limited max (t.proceed ⟨none, maxStale⟩ stale)
      (t'.proceed ⟨some max, maxStale⟩ stale) := h.proceed hbase hfresh hfresh'
  have herrors := h.errors_eq
  unfold Tally.step
  cases hcs : t.errors with
  | nil =>
    rw [hcs, List.length_nil, List.length_eq_zero_iff] at herrors
    rw [herrors]
    exact hproceed
  | cons error errors =>
    rw [hcs] at herrors
    obtain ⟨error', errors', hcs'⟩ := List.exists_cons_of_length_eq_add_one herrors
    rw [hcs'] at herrors ⊢
    dsimp only
    rw [herrors]
    split
    · -- the limit is not zero, so that something is found with it if something is found without
      rw [h.found_eq]
      obtain ⟨max, rfl⟩ := Nat.exists_eq_add_of_lt (Nat.zero_lt_of_lt hbase)
      cases t.found with
      | nil => exact .broken error error'
      | cons d found => exact .finish (d :: found)
    · exact hproceed

end Fresh

end Tally.Limited

variable {i : Inquiry} {p : Progress} {found : List Discovered}

/-- Behind a round, a search with a limit goes on as one without, but for the patterns beyond the
limit. -/
lemma Progress.limited_step (hp : p.found.length < max)
    (hcs : List.Forall₂ Contribution.Alike contributions contributions') :
    Step.Limited max (p.step ⟨none, maxStale⟩ query contributions)
      (p.step ⟨some max, maxStale⟩ query contributions') := by
  have hstart : Tally.Limited max { found := p.found } { found := p.found } :=
    ⟨(List.take_of_length_le hp.le).symm, rfl, rfl⟩
  have hround : Tally.Limited max (Tally.ofRound ⟨none, maxStale⟩ query p.found contributions)
      (Tally.ofRound ⟨some max, maxStale⟩ query p.found contributions') := hstart.addAll hcs
  rw [Progress.step, Progress.step, ← hcs.length_eq]
  apply hround.step hp
  · exact (Tally.length_addAll_add_fresh _ query { found := p.found } contributions).symm
  · exact (Tally.length_addAll_add_fresh _ query { found := p.found } contributions').symm

lemma Progress.found_initial_ofRound (l : Limits) (query : Query) (p : Progress)
    (contributions : List Contribution) :
    p.found <+: (Tally.ofRound l query p.found contributions).found := by
  obtain ⟨fresh, hfresh, -⟩ := Tally.exists_fresh l query { found := p.found } contributions
  rw [Tally.ofRound_eq_addAll, hfresh]
  exact List.prefix_append _ _

/-- What is left of a search when a limit is put to it. -/
def Progress.limited (max : Nat) (p : Progress) : Progress := ⟨p.found.take max, p.stale⟩

@[simp] lemma Progress.limited_empty (max : Nat) : Progress.limited max {} = {} := by
  rw [limited, List.take_nil]

lemma Progress.limited_eq_self (hp : p.found.length < max) : p.limited max = p := by
  rw [limited, List.take_of_length_le hp.le]

lemma Progress.reached_limited (hp : max ≤ p.found.length) :
    Limits.reached ⟨some max, maxStale⟩ (p.limited max).found.length = true := by
  apply decide_eq_true
  rw [limited, List.length_take_of_le hp]

lemma Progress.found_limited_of_initial (h : p.found <+: found) (hp : max ≤ p.found.length) :
    (p.limited max).found = found.take max := by
  obtain ⟨more, rfl⟩ := h
  rw [limited, List.take_append_of_le_length hp]

/-! ### Histories -/

/-- Rounds in which the verifier gives the same replies, unless the first one does not come to its
runs. -/
def Round.Alike (r r' : Round) : Prop :=
  ∀ readings, r.answer = .ok readings →
    ∃ readings', r'.answer = .ok readings' ∧ readings.map (·.reply) = readings'.map (·.reply)

/-- Where two searches ask the same in the same round, the verifier gives the same replies. -/
def AlikeReplies (rounds rounds' : List Round) : Prop :=
  ∀ (place : Nat) (r r' : Round), rounds[place]? = some r → rounds'[place]? = some r' →
    r.inquiry = r'.inquiry → r.Alike r'

lemma AlikeReplies.of_initial {rounds rounds' log log' : List Round} {r r' : Round}
    (h : AlikeReplies rounds rounds') (hr : log ++ [r] <+: rounds) (hr' : log' ++ [r'] <+: rounds')
    (hlog : log.length = log'.length) (hinquiry : r.inquiry = r'.inquiry) : r.Alike r' := by
  obtain ⟨more, rfl⟩ := hr
  obtain ⟨more', rfl⟩ := hr'
  apply h log.length r r' _ _ hinquiry
  · simp
  · simp [hlog]

lemma alike_contributions {readings readings' : List Reading} (focus : Option (List String))
    (h : readings.map (·.reply) = readings'.map (·.reply)) :
    List.Forall₂ Contribution.Alike (readings.map (·.contribution focus))
      (readings'.map (·.contribution focus)) := by
  rw [← List.forall₂_eq_eq_eq, List.forall₂_map_left_iff, List.forall₂_map_right_iff] at h
  rw [List.forall₂_map_left_iff, List.forall₂_map_right_iff]
  refine h.imp fun r r' hreply => ?_
  have hcontributes := r.contributes focus
  rw [hreply] at hcontributes
  exact hcontributes.alike (r'.contributes focus)

namespace Search

variable (s : Search) {l : Limits} {n : Nat} {log log' : List Round} {w w' : World} {q : Inquiry}

namespace Explored

variable {s} {result : (Option Answer × List Round) × World}

/-- A search ends with what it has found, and possibly more. -/
lemma found_initial (h : s.Explored l i n p log w result)
    (hresult : result.1.1 = some (.ok found)) : p.found <+: found := by
  induction h with
  | enough _ =>
    cases hresult
    exact List.prefix_refl _
  | spent _ | unsupported _ _ | refused _ _ _ => cases hresult
  | @finished n p log w w' q readings answer _ _ _ hstep =>
    cases hresult
    rw [Progress.found_of_step_eq_finish hstep]
    exact p.found_initial_ofRound _ _ _
  | @again n p p' log w w' q readings result _ _ _ hstep _ ih =>
    apply List.IsPrefix.trans _ (ih hresult)
    rw [Progress.found_of_step_eq_again hstep]
    exact p.found_initial_ofRound _ _ _

end Explored

/-! ### Side by side -/

/-- A round of a search with a limit, if the replies are those of a round without one. -/
lemma exploreFrom_limited {readings readings' : List Reading} (hp : p.found.length < max)
    (hq : i.round? p.found = some q) (hread : s.readAll q w = (.ok readings', w'))
    (hreplies : readings.map (·.reply) = readings'.map (·.reply)) :
    ∃ step, Step.Limited max
        (p.step ⟨none, maxStale⟩ q.query (readings.map (·.contribution q.focus))) step ∧
      exploreFrom ⟨some max, maxStale⟩ i s.askLogged (n + 1) (p.limited max) log w =
        s.behind ⟨some max, maxStale⟩ i n (log ++ [⟨q, .ok readings'⟩]) w' step := by
  refine ⟨_, p.limited_step hp (alike_contributions q.focus hreplies), ?_⟩
  have hmore : Limits.reached ⟨some max, maxStale⟩ p.found.length = false :=
    decide_eq_false (Nat.not_le_of_lt hp)
  rw [p.limited_eq_self hp, s.exploreFrom_succ hmore hq, hread]

namespace Explored

variable {s} {result : (Option Answer × List Round) × World}

/-- With a limit, a search carries out the first of the rounds that it carries out without one. -/
lemma limited_initial (h : s.Explored ⟨none, maxStale⟩ i n p log w result)
    (hresult : result.1.1 = some (.ok found)) (max : Nat) :
    (exploreFrom ⟨some max, maxStale⟩ i s.askLogged n (p.limited max) log w).1.2 <+:
      result.1.2 := by
  induction h with
  | enough henough => cases henough
  | spent _ | unsupported _ _ | refused _ _ _ => cases hresult
  | finished hmore hq hread hstep =>
    -- below the limit both searches ask the same, from there on the limited one has ended
    rcases Nat.lt_or_ge _ max with hp | hp
    · obtain ⟨step, hlimited, hexplore⟩ := s.exploreFrom_limited hp hq hread rfl
      rw [hexplore]
      rw [hstep] at hlimited
      cases hlimited <;> exact List.prefix_refl _
    · rw [exploreFrom_of_reached (Progress.reached_limited hp)]
      exact List.prefix_append _ _
  | again hmore hq hread hstep h ih =>
    rcases Nat.lt_or_ge _ max with hp | hp
    · obtain ⟨step, hlimited, hexplore⟩ := s.exploreFrom_limited hp hq hread rfl
      rw [hexplore]
      rw [hstep] at hlimited
      cases hlimited
      exact ih hresult
    · rw [exploreFrom_of_reached (Progress.reached_limited hp)]
      exact (List.prefix_append _ _).trans h.log_initial

end Explored

/-- What is asked in both searches has the same replies in both. -/
lemma exists_readings_of_alike {rounds : List Round} {readings : List Reading}
    (hp : p.found.length < max) (hq : i.round? p.found = some q)
    (hr : log ++ [⟨q, .ok readings⟩] <+: rounds) (hlog : log.length = log'.length)
    (h : AlikeReplies rounds
      (exploreFrom ⟨some max, maxStale⟩ i s.askLogged (n + 1) (p.limited max) log' w).1.2) :
    ∃ readings' w', s.readAll q w = (.ok readings', w') ∧
      readings.map (·.reply) = readings'.map (·.reply) := by
  have hmore : Limits.reached ⟨some max, maxStale⟩ p.found.length = false :=
    decide_eq_false (Nat.not_le_of_lt hp)
  rw [p.limited_eq_self hp] at h
  have hasked : log' ++ [⟨q, (s.readAll q w).1⟩] <+:
      (exploreFrom ⟨some max, maxStale⟩ i s.askLogged (n + 1) p log' w).1.2 :=
    s.asked_initial_exploreFrom hmore hq
  obtain ⟨readings', hanswer, hreplies⟩ := h.of_initial hr hasked hlog rfl readings rfl
  exact ⟨readings', (s.readAll q w).2, Prod.ext hanswer rfl, hreplies⟩

/-- A search with a limit ends with the first of the patterns that are found without one, if it
meets with the same replies. -/
lemma Explored.limited_answer {s : Search} {result : (Option Answer × List Round) × World}
    (h : s.Explored ⟨none, maxStale⟩ i n p log w result)
    (hresult : result.1.1 = some (.ok found)) (hlog : log.length = log'.length)
    (hreplies : AlikeReplies result.1.2
      (exploreFrom ⟨some max, maxStale⟩ i s.askLogged n (p.limited max) log' w').1.2) :
    (exploreFrom ⟨some max, maxStale⟩ i s.askLogged n (p.limited max) log' w').1.1 =
      some (.ok (found.take max)) := by
  have hinitial := h.found_initial hresult
  -- on the unlimited exploration: below the limit both make the same step of the same replies
  induction h generalizing log' w' with
  | enough henough => cases henough
  | spent _ | unsupported _ _ | refused _ _ _ => cases hresult
  | finished hmore hq hread hstep =>
    rcases Nat.lt_or_ge _ max with hp | hp
    · obtain ⟨readings', w'', hread', hsame⟩ :=
        s.exists_readings_of_alike hp hq (List.prefix_refl _) hlog hreplies
      obtain ⟨step, hlimited, hexplore⟩ := s.exploreFrom_limited hp hq hread' hsame
      rw [hexplore]
      rw [hstep] at hlimited
      cases hresult
      cases hlimited
      rfl
    · rw [exploreFrom_of_reached (Progress.reached_limited hp),
        Progress.found_limited_of_initial hinitial hp]
      rfl
  | again hmore hq hread hstep h ih =>
    rcases Nat.lt_or_ge _ max with hp | hp
    · obtain ⟨readings', w'', hread', hsame⟩ :=
        s.exists_readings_of_alike hp hq h.log_initial hlog hreplies
      obtain ⟨step, hlimited, hexplore⟩ := s.exploreFrom_limited hp hq hread' hsame
      rw [hexplore] at hreplies ⊢
      rw [hstep] at hlimited
      cases hlimited
      exact ih hresult (by simp [hlog]) hreplies (h.found_initial hresult)
    · rw [exploreFrom_of_reached (Progress.reached_limited hp),
        Progress.found_limited_of_initial hinitial hp]
      rfl

/-- The runs of a round have the replies that a verifier gives which looks at nothing but the kind
of witness that is asked for, the text of the query and the model with what is added to it. -/
def AnsweredBy (s : Search) (text : String)
    (answer : Diagnostic → String → Model.Outcome → Reply) (r : Round) : Prop :=
  r.answer.map (·.map (·.reply)) = .ok (s.roundDiagnostics.map fun kind =>
    answer kind r.inquiry.query.text (Model.instrument text r.inquiry.plan))

instance (s : Search) (text : String) (answer : Diagnostic → String → Model.Outcome → Reply)
    (r : Round) : Decidable (s.AnsweredBy text answer r) :=
  inferInstanceAs (Decidable (_ = _))

lemma AnsweredBy.alike {text : String} {answer : Diagnostic → String → Model.Outcome → Reply}
    {r r' : Round} (h : s.AnsweredBy text answer r) (h' : s.AnsweredBy text answer r')
    (hinquiry : r.inquiry = r'.inquiry) : r.Alike r' := by
  intro readings hanswer
  unfold AnsweredBy at h h'
  rw [hinquiry, ← h', hanswer] at h
  cases hanswer' : r'.answer with
  | error error =>
    rw [hanswer'] at h
    cases h
  | ok readings' =>
    rw [hanswer'] at h
    exact ⟨readings', rfl, Except.ok.inj h⟩

lemma isReachability_of_ok {limit : Option Nat} (h : (s.findAll i limit n w).1 = some (.ok found)) :
    i.query.isReachability = true := by
  by_contra hquery
  rw [findAll, explore, if_neg hquery] at h
  cases h

lemma history_initial (h : (s.findAll i none n w).1 = some (.ok found)) (max : Nat) :
    s.history i (some max) n w <+: s.history i none n w := by
  have hquery := s.isReachability_of_ok h
  rw [s.findAll_eq_exploreFrom hquery] at h
  have hinitial := (s.explored ⟨none, s.maxStale⟩ i n {} [] w).limited_initial h max
  rw [Progress.limited_empty] at hinitial
  rwa [s.history_eq_exploreFrom hquery, s.history_eq_exploreFrom hquery]

lemma findAll_of_alikeReplies (h : (s.findAll i none n w).1 = some (.ok found))
    (hreplies : AlikeReplies (s.history i none n w) (s.history i (some max) n w')) :
    (s.findAll i (some max) n w').1 = some (.ok (found.take max)) := by
  have hquery := s.isReachability_of_ok h
  rw [s.findAll_eq_exploreFrom hquery] at h
  rw [s.history_eq_exploreFrom hquery, s.history_eq_exploreFrom hquery] at hreplies
  have hanswer : (exploreFrom ⟨some max, s.maxStale⟩ i s.askLogged n (Progress.limited max {}) []
      w').1.1 = some (.ok (found.take max)) := by
    apply (s.explored ⟨none, s.maxStale⟩ i n {} [] w).limited_answer h rfl
    rwa [Progress.limited_empty]
  rwa [s.findAll_eq_exploreFrom hquery, ← Progress.limited_empty max]

/-- If a search without a limit ends with some patterns, it ends with the first of them when there
is a limit, and carries out the first of its rounds. So it does in another world, if in both of
them the verifier looks at nothing but the kind of witness, the query and the model. -/
theorem findAll_take (s : Search) (i : Inquiry) (n : Nat) (w : World) (found : List Discovered)
    (h : (s.findAll i none n w).1 = some (.ok found)) (max n' : Nat) (hn : n ≤ n') :
    ((s.findAll i (some max) n' w).1 = some (.ok (found.take max)) ∧
      s.history i (some max) n' w <+: s.history i none n w) ∧
    ∀ (w' : World) (text : String) (answer : Diagnostic → String → Model.Outcome → Reply),
      (∀ r ∈ s.history i none n w, s.AnsweredBy text answer r) →
      (∀ r ∈ s.history i (some max) n' w', s.AnsweredBy text answer r) →
      (s.findAll i (some max) n' w').1 = some (.ok (found.take max)) := by
  have hended : (s.findAll i none n w).1.isSome := by rw [h]; rfl
  rw [← s.history_of_isSome hn hended]
  rw [← s.findAll_of_isSome hn hended] at h
  have hinitial := s.history_initial h max
  refine ⟨⟨?_, hinitial⟩, ?_⟩
  · apply s.findAll_of_alikeReplies h
    intro place r r' hr hr' _
    -- in the same world the rounds of the limited search are the first rounds of the other
    obtain rfl : r = r' := by
      obtain ⟨more, hmore⟩ := hinitial
      rw [← hmore, List.getElem?_append_left (List.getElem?_eq_some_iff.1 hr').1] at hr
      exact Option.some.inj (hr.symm.trans hr')
    exact fun readings hanswer => ⟨readings, hanswer, rfl⟩
  · intro w' text answer hw hw'
    apply s.findAll_of_alikeReplies h
    intro place r r' hr hr' hinquiry
    exact (hw r (List.mem_of_getElem? hr)).alike s (hw' r' (List.mem_of_getElem? hr')) hinquiry

end Search

namespace Sample

/-- A trace with one transition on a label. -/
def traceOf (label : String) : String :=
  "<trace><location id=\"l\"/><edge id=\"e\" from=\"l\" to=\"l\" sync=\"" ++ label
    ++ "!\"/><node id=\"n\"/><transition to=\"n\" edges=\"e\"/></trace>"

def steadyVerifier : Behaviour := fun _ c _ files =>
  match (files.readText ((c.arguments.getLast?).getD "")).toOption.bind label? with
  | some label =>
    .ok { status := some 0, stdout := .text "Formula is satisfied",
          writes := [((c.arguments[3]?).getD "" ++ "-1.xml",
            .text (traceOf label))] }
  | none => .ok { status := some 0, stdout := .text "Formula is NOT satisfied" }

/-- What the verifier replies. -/
def reply (_ : Diagnostic) (query : String) (_ : Model.Outcome) : Reply :=
  match label? query with
  | some label =>
    .shows ⟨defaultClock, [⟨label, [⟨"e", "l", "l"⟩], .full⟩], List.pairwise_singleton _ _⟩
  | none => .refutes

def steadyWorld : World := { world with behaviour := steadyVerifier }

/-- Another one, in which files have other names. -/
def laterWorld : World := { steadyWorld with processId := 2, tags := 5, scopes := 3 }

end Sample

/-- With a limit, the search of the sample finds the first of two patterns, also in a world in which
the files on the way have other names. -/
theorem Search.take_sample :
    (Sample.search.findAll (.ofRequest Sample.search.clock (Sample.request none)) none 4
        Sample.steadyWorld).1 = some (.ok Sample.bothPatterns) ∧
      (∀ r ∈ Sample.search.history (.ofRequest Sample.search.clock (Sample.request none)) none 4
        Sample.steadyWorld, Sample.search.AnsweredBy "<nta></nta>" Sample.reply r) ∧
      (∀ r ∈ Sample.search.history (.ofRequest Sample.search.clock (Sample.request none)) (some 1) 4
        Sample.laterWorld, Sample.search.AnsweredBy "<nta></nta>" Sample.reply r) ∧
      (Sample.search.findAll (.ofRequest Sample.search.clock (Sample.request none)) (some 1) 4
        Sample.laterWorld).1 = some (.ok [⟨⟨"E<> true"⟩, ⟨[⟨"a", 0, -1⟩]⟩⟩]) := by
  obtain ⟨hfound, hfirst⟩ :
      (Sample.search.findAll (.ofRequest Sample.search.clock (Sample.request none)) none 4
        Sample.steadyWorld).1 = some (.ok Sample.bothPatterns) ∧
      ∀ r ∈ Sample.search.history (.ofRequest Sample.search.clock (Sample.request none)) none 4
        Sample.steadyWorld, Sample.search.AnsweredBy "<nta></nta>" Sample.reply r := by
    decide +kernel
  have hlater : ∀ r ∈ Sample.search.history
      (.ofRequest Sample.search.clock (Sample.request none)) (some 1) 4 Sample.laterWorld,
      Sample.search.AnsweredBy "<nta></nta>" Sample.reply r := by
    decide +kernel
  obtain ⟨-, htake⟩ := Search.findAll_take Sample.search _ 4 _ _ hfound 1 4 le_rfl
  exact ⟨hfound, hfirst, hlater, htake _ _ _ hfirst hlater⟩

end TimedPatterns
