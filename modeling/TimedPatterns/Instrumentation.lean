import TimedPatterns.Query
import TimedPatterns.Template.Signal

/-!
# Instrumentation

What is added to a model for one query: a template for the input and one for the observations, if
there are any, and a monitor for every pattern that is ruled out. The query then asks for a run
in which the input is done, the observations have passed, and no monitor has.
-/

namespace TimedPatterns

/-- The templates to add to a model for one query. -/
structure Instrumentation where
  clock : String
  input : Option TimedWord := none
  observed : Option TimedWord := none
  observedAlphabet : Option (List String) := none
  excluded : List (List String) := []
  exclusionAlphabet : List String := []
  deriving DecidableEq, Repr

namespace Instrumentation

/-- A signal, unless it is empty. -/
def signal? (w : TimedWord) : Option TimedWord := if w.isEmpty then none else some w

/-- Send one signal and receive another; an empty signal adds nothing. -/
def withSignals (p : Instrumentation) (input observed : TimedWord)
    (alphabet : Option (List String)) : Instrumentation :=
  { p with input := signal? input, observed := signal? observed, observedAlphabet := alphabet }

def excluding (p : Instrumentation) (patterns : List (List String)) (alphabet : List String) :
    Instrumentation :=
  { p with excluded := patterns, exclusionAlphabet := alphabet }

def isEmpty (p : Instrumentation) : Bool :=
  p.input.isNone && p.observed.isNone && p.excluded.isEmpty

def monitors (p : Instrumentation) : List String :=
  (List.range p.excluded.length).map Template.monitorName

/-- What a run has to reach: the end of the input and of the observations. -/
def goals (p : Instrumentation) : List String :=
  (p.input.map fun _ => Template.inputName ++ ".done").toList
    ++ (p.observed.map fun _ => Template.observerName ++ ".pass").toList

def goal (p : Instrumentation) : Query := .reach p.goals

def templates (p : Instrumentation) : List Template :=
  (p.input.map fun w => Template.input w p.clock).toList
    ++ (p.observed.map fun w => Template.observer w p.observedAlphabet p.clock).toList
    ++ p.excluded.mapIdx fun k pattern => Template.monitor k pattern p.exclusionAlphabet

end Instrumentation

end TimedPatterns
