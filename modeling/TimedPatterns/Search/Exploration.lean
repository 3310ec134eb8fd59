import TimedPatterns.Search.Basic

/-!
# Exploration

An exhaustive search works in rounds. A round asks for runs in which no pattern found so far is
seen, one run of the verifier for each kind of witness, and adds the patterns that are new. What
a run contributes is a pattern, the proof that there is nothing to find, or a failure.

The search ends

- with as many patterns as were asked for;
- in a round in which every run fails: with the patterns of the rounds before it, or, if there
  are none, with the first of the failures;
- in a round without a new pattern that has a proof that there is nothing to find;
- in the last of a number of rounds in a row without a new pattern.

How a round is carried out is left to its caller, and so is what it does meanwhile.
-/

namespace TimedPatterns

/-- What a run of the verifier contributes to a search. -/
inductive Contribution where
  | pattern (word : TimedWord)
  | unsatisfied
  | failed (error : SearchError)
  deriving DecidableEq, Repr

/-- What ends an exhaustive search at the latest: a number of patterns, if there is one, and a
number of rounds in a row without a new pattern. -/
structure Limits where
  patterns : Option Nat
  maxStale : Nat
  deriving DecidableEq, Repr

def Limits.reached (l : Limits) (count : Nat) : Bool :=
  match l.patterns with
  | none => false
  | some limit => limit ≤ count

/-! ### Rounds -/

/-- The actions that monitors follow: those in focus, or else those that can be observed and those
of the patterns found so far, in order and each of them once. -/
def exclusionAlphabet (focus observable : Option (List String)) (found : List Discovered) :
    List String :=
  match focus with
  | some focus => focus
  | none =>
    let actions := observable.getD [] ++ found.flatMap (·.pattern.actions)
    (actions.mergeSort fun a b => decide (a ≤ b)).eraseReps

/-- The inquiry of one round: the patterns found so far are ruled out. There is none if the query
does not ask whether a state is reachable. -/
def Inquiry.round? (i : Inquiry) (found : List Discovered) : Option Inquiry :=
  let plan := i.plan.excluding (found.map (·.pattern.actions))
    (exclusionAlphabet i.focus i.plan.observedAlphabet found)
  (i.query.excluding plan.monitors).map fun query => ⟨plan, query, i.focus⟩

/-- Where an exhaustive search stands: the patterns found, in the order in which they were found,
and the number of rounds since the last one. -/
structure Progress where
  found : List Discovered := []
  stale : Nat := 0
  deriving DecidableEq, Repr

/-- What came of a round: the patterns found up to its end, how many of them are new, whether it
was proven that there is nothing to find, and the errors of the runs that failed. -/
structure Tally where
  found : List Discovered
  fresh : Nat := 0
  unsatisfied : Bool := false
  errors : List SearchError := []
  deriving DecidableEq, Repr

namespace Tally

/-- Add what a run contributed. A pattern is new if none of those found has its labels. -/
def add (l : Limits) (query : Query) (t : Tally) : Contribution → Tally
  | .pattern word =>
    if l.reached t.found.length || t.found.any (·.pattern.actions == word.actions) then t
    else { t with found := t.found ++ [⟨query, word⟩], fresh := t.fresh + 1 }
  | .unsatisfied => { t with unsatisfied := true }
  | .failed error => { t with errors := t.errors ++ [error] }

/-- Add up what the runs of a round contributed. -/
def ofRound (l : Limits) (query : Query) (found : List Discovered)
    (contributions : List Contribution) : Tally :=
  contributions.foldl (add l query) { found }

end Tally

abbrev Answer := Except SearchError (List Discovered)

/-- How a search goes on behind a round. -/
inductive Step where
  | again (progress : Progress)
  | finish (answer : Answer)

namespace Tally

/-- How a search goes on behind a round in which not every run has failed. -/
def proceed (l : Limits) (stale : Nat) (t : Tally) : Step :=
  if t.fresh > 0 then .again ⟨t.found, 0⟩
  else if t.unsatisfied then .finish (.ok t.found)
  else if l.maxStale ≤ stale + 1 then .finish (.ok t.found)
  else .again ⟨t.found, stale + 1⟩

def step (l : Limits) (runs stale : Nat) (t : Tally) : Step :=
  match t.errors with
  | [] => t.proceed l stale
  | error :: _ =>
    if t.errors.length = runs then
      .finish (if t.found.isEmpty then .error error else .ok t.found)
    else t.proceed l stale

end Tally

/-- How a search goes on with what the runs of a round contributed. -/
def Progress.step (l : Limits) (query : Query) (p : Progress)
    (contributions : List Contribution) : Step :=
  (Tally.ofRound l query p.found contributions).step l contributions.length p.stale

/-! ### Exploring -/

/-- Go on for at most the given number of rounds, each carried out by `ask`. There is no answer if
the search has not ended by then. -/
def exploreFrom {m : Type → Type} [Monad m] (l : Limits) (i : Inquiry)
    (ask : Inquiry → m (Except SearchError (List Contribution))) :
    Nat → Progress → m (Option Answer)
  | rounds, p =>
    if l.reached p.found.length then return some (.ok p.found)
    else match rounds with
      | 0 => return none
      | rounds + 1 =>
        match i.round? p.found with
        | none => return some (.error (.unsupported i.query.text))
        | some round => do
          match ← ask round with
          | .error error => return some (.error error)
          | .ok contributions =>
            match p.step l round.query contributions with
            | .finish answer => return some answer
            | .again p => exploreFrom l i ask rounds p

/-- Enumerate the patterns of an inquiry. Only a query that asks whether a state is reachable has
patterns that can be ruled out. -/
def explore {m : Type → Type} [Monad m] (l : Limits) (i : Inquiry)
    (ask : Inquiry → m (Except SearchError (List Contribution))) (rounds : Nat) :
    m (Option Answer) :=
  if i.query.isReachability then exploreFrom l i ask rounds {}
  else return some (.error (.unsupported i.query.text))

end TimedPatterns
