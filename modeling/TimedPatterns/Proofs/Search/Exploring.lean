import TimedPatterns.Proofs.Search.History

/-!
# Exploring, round by round

How a search with a log goes on from where it stands: it is at its end, or it asks one more round,
and goes on from there. So what holds at the end of a search is shown by induction on its rounds.
-/

namespace TimedPatterns.Search

variable (s : Search) {l : Limits} {i : Inquiry} {n : Nat} {p : Progress} {log : List Round}
  {w : World} {q : Inquiry}

lemma exploreFrom_of_reached {m : Type → Type} [Monad m]
    {ask : Inquiry → m (Except SearchError (List Contribution))}
    (henough : l.reached p.found.length = true) :
    exploreFrom l i ask n p = pure (some (.ok p.found)) := by
  cases n <;> simp only [exploreFrom, henough, if_true]

/-- How a search goes on from where it stands, with a number of rounds left and a log: what it comes
to, the log in the end, and the world that it leaves. -/
inductive Explored (s : Search) (l : Limits) (i : Inquiry) :
    Nat → Progress → List Round → World → (Option Answer × List Round) × World → Prop
  | enough {n : Nat} {p : Progress} {log : List Round} {w : World}
      (henough : l.reached p.found.length = true) :
      Explored s l i n p log w ((some (.ok p.found), log), w)
  | spent {p : Progress} {log : List Round} {w : World}
      (hmore : l.reached p.found.length = false) : Explored s l i 0 p log w ((none, log), w)
  | unsupported {n : Nat} {p : Progress} {log : List Round} {w : World}
      (hmore : l.reached p.found.length = false) (hq : i.round? p.found = none) :
      Explored s l i (n + 1) p log w ((some (.error (.unsupported i.query.text)), log), w)
  | refused {n : Nat} {p : Progress} {log : List Round} {w w' : World} {q : Inquiry}
      {error : SearchError} (hmore : l.reached p.found.length = false)
      (hq : i.round? p.found = some q) (hread : s.readAll q w = (.error error, w')) :
      Explored s l i (n + 1) p log w ((some (.error error), log ++ [⟨q, .error error⟩]), w')
  | finished {n : Nat} {p : Progress} {log : List Round} {w w' : World} {q : Inquiry}
      {readings : List Reading} {answer : Answer} (hmore : l.reached p.found.length = false)
      (hq : i.round? p.found = some q) (hread : s.readAll q w = (.ok readings, w'))
      (hstep : p.step l q.query (readings.map (·.contribution q.focus)) = .finish answer) :
      Explored s l i (n + 1) p log w ((some answer, log ++ [⟨q, .ok readings⟩]), w')
  | again {n : Nat} {p p' : Progress} {log : List Round} {w w' : World} {q : Inquiry}
      {readings : List Reading} {result : (Option Answer × List Round) × World}
      (hmore : l.reached p.found.length = false) (hq : i.round? p.found = some q)
      (hread : s.readAll q w = (.ok readings, w'))
      (hstep : p.step l q.query (readings.map (·.contribution q.focus)) = .again p')
      (h : Explored s l i n p' (log ++ [⟨q, .ok readings⟩]) w' result) :
      Explored s l i (n + 1) p log w result

/-- What a search comes to behind a round, with a number of rounds left and a log. -/
def behind (s : Search) (l : Limits) (i : Inquiry) (n : Nat) (log : List Round) (w : World) :
    Step → (Option Answer × List Round) × World
  | .finish answer => ((some answer, log), w)
  | .again p => exploreFrom l i s.askLogged n p log w

/-- A search that goes on asks the next round. -/
lemma exploreFrom_succ (hmore : l.reached p.found.length = false) (hq : i.round? p.found = some q) :
    exploreFrom l i s.askLogged (n + 1) p log w =
      match s.readAll q w with
      | (.error error, w') => ((some (.error error), log ++ [⟨q, .error error⟩]), w')
      | (.ok readings, w') =>
        s.behind l i n (log ++ [⟨q, .ok readings⟩]) w'
          (p.step l q.query (readings.map (·.contribution q.focus))) := by
  simp only [exploreFrom, hmore, Bool.false_eq_true, if_false, hq, Session.logged_bind_apply,
    askLogged_apply, askAll_eq, Session.map_apply]
  generalize s.readAll q w = read
  obtain ⟨error | readings, w'⟩ := read
  · rfl
  · simp only [Except.map]
    cases p.step l q.query (readings.map (·.contribution q.focus)) with
    | finish answer => rfl
    | again p' => rfl

lemma explored (l : Limits) (i : Inquiry) (n : Nat) (p : Progress) (log : List Round) (w : World) :
    s.Explored l i n p log w (exploreFrom l i s.askLogged n p log w) := by
  induction n generalizing p log w with
  | zero =>
    cases hmore : l.reached p.found.length with
    | true =>
      rw [exploreFrom_of_reached hmore]
      exact .enough hmore
    | false =>
      simp only [exploreFrom, hmore]
      exact .spent hmore
  | succ n ih =>
    cases hmore : l.reached p.found.length with
    | true =>
      rw [exploreFrom_of_reached hmore]
      exact .enough hmore
    | false =>
      cases hq : i.round? p.found with
      | none =>
        simp only [exploreFrom, hmore, hq]
        exact .unsupported hmore hq
      | some q =>
        rw [s.exploreFrom_succ hmore hq]
        rcases hread : s.readAll q w with ⟨error | readings, w'⟩
        · exact .refused hmore hq hread
        · dsimp only
          cases hstep : p.step l q.query (readings.map (·.contribution q.focus)) with
          | finish answer => exact .finished hmore hq hread hstep
          | again p' => exact .again hmore hq hread hstep (ih p' _ w')

/-- The rounds of a search are put behind those of its log. -/
lemma Explored.log_initial {s : Search} {result : (Option Answer × List Round) × World}
    (h : s.Explored l i n p log w result) : log <+: result.1.2 := by
  induction h with
  | enough _ | spent _ | unsupported _ _ => exact List.prefix_refl _
  | refused _ _ _ | finished _ _ _ _ => exact List.prefix_append _ _
  | again _ _ _ _ _ ih => exact (List.prefix_append _ _).trans ih

/-- A search that goes on puts the next round behind its log. -/
lemma asked_initial_exploreFrom (hmore : l.reached p.found.length = false)
    (hq : i.round? p.found = some q) :
    log ++ [⟨q, (s.readAll q w).1⟩] <+: (exploreFrom l i s.askLogged (n + 1) p log w).1.2 := by
  rw [s.exploreFrom_succ hmore hq]
  obtain ⟨error | readings, w'⟩ := s.readAll q w
  · exact List.prefix_refl _
  · dsimp only
    cases p.step l q.query (readings.map (·.contribution q.focus)) with
    | finish answer => exact List.prefix_refl _
    | again p' => exact (s.explored l i n p' _ w').log_initial

/-! ### Whole searches -/

section Reachability

variable (hquery : i.query.isReachability = true) (limit : Option Nat) (n : Nat) (w : World)

include hquery

lemma history_eq_exploreFrom : s.history i limit n w =
    (exploreFrom ⟨limit, s.maxStale⟩ i s.askLogged n {} [] w).1.2 := by
  rw [history, findAllLogged, explore, if_pos hquery]

lemma findAll_eq_exploreFrom : (s.findAll i limit n w).1 =
    (exploreFrom ⟨limit, s.maxStale⟩ i s.askLogged n {} [] w).1.1 := by
  rw [findAll, explore, if_pos hquery, s.exploreFrom_askLogged _ i n {} [] w]

end Reachability

end TimedPatterns.Search
