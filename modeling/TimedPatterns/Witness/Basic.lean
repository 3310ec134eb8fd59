import TimedPatterns.Text.Blank
import TimedPatterns.Text.Numeral
import TimedPatterns.Text.Quoted
import TimedPatterns.Trace

/-!
# Witnesses

A witness is a run of a network of timed automata as the verifier reports it. It lists symbolic
states, each a conjunction of constraints on differences of clocks, and moves between them, each
a set of edges taken together. Both written forms of a witness are read into this one.

Reading a witness against a reference clock gives a trace. Only the moves that synchronise on an
action are kept, and the interval of such a move is the one its target state leaves to the
reference clock.
-/

namespace TimedPatterns

/-- What is wrong with a witness. -/
inductive Flaw where
  | badExtension
  | transitionsBeforeState (line : Nat)
  | repeatedTransitions (line : Nat)
  | badToken (line : Nat) (token : String) (error : Text.NumeralError)
  | badEdge (line : Nat) (text : String)
  | edgeBetweenProcesses (line : Nat) (text source target : String)
  | endsInTransition
  | noStateBlock
  | notDocument (line column : Nat)
  | noTrace (root : String)
  | missingAttribute (element name : String)
  | duplicateId (element id : String)
  | duplicateNode (id : String)
  | unknownReference (kind id : String)
  | unknownNode (id : String)
  | badBound (text : String) (error : Text.NumeralError)
  | unknownComparison (text : String)
  | noStates
  | missingState (index : Nat)
  | lowerOutOfRange (bound : Int) (clock : String)
  | order (error : OrderError)
  deriving DecidableEq, Repr

open Text in
def Flaw.message : Flaw → String
  | .badExtension => "expected a .xtr or .xml extension"
  | .transitionsBeforeState line => s!"line {line}: transitions before any state"
  | .repeatedTransitions line =>
    s!"line {line}: two transition blocks without a state between them"
  | .badToken line token error => s!"line {line}: bad bound in {quoted token}: {error.message}"
  | .badEdge line text => s!"line {line}: unrecognized edge {quoted text}"
  | .edgeBetweenProcesses line text source target =>
    s!"line {line}: edge {quoted text} moves between processes {source} and {target}"
  | .endsInTransition => "trace ends with a transition and no target state"
  | .noStateBlock => "no `State:` block found"
  | .notDocument line column => s!"not an XML document: error at {line}:{column}"
  | .noTrace root => s!"expected a <trace> element, found <{root}>"
  | .missingAttribute element name => s!"<{element}> is missing attribute `{name}`"
  | .duplicateId element id => s!"duplicate <{element}> id {quoted id}"
  | .duplicateNode id => s!"duplicate node id {quoted id}"
  | .unknownReference kind id => s!"reference to unknown {kind} {quoted id}"
  | .unknownNode id => s!"transition to unknown node {quoted id}"
  | .badBound text error => s!"bad bound {quoted text}: {error.message}"
  | .unknownComparison text => s!"unknown comparison {quoted text}"
  | .noStates => "trace has no states"
  | .missingState index => s!"transition leads to missing state {index}"
  | .lowerOutOfRange bound clock => s!"lower bound {bound} on {clock} is out of range"
  | .order error => error.message

/-! ### States -/

/-- The name of the clock that always stands at zero. -/
def zeroClock : String := "t(0)"

/-- The constraint `left - right ≤ bound`, or `left - right < bound` if strict. -/
structure Difference where
  left : String
  right : String
  bound : Int
  strict : Bool
  deriving DecidableEq, Repr

/-- A conjunction of constraints on differences of clocks. -/
structure SymbolicState where
  differences : List Difference
  deriving DecidableEq, Repr

/-- Narrow the interval of a clock by one constraint. A constraint on other clocks leaves it as
it is, and a strict one counts like one that is not, since intervals are closed. -/
def Difference.narrow (clock : String) (i : ClockInterval) (d : Difference) :
    Except Flaw ClockInterval :=
  if d.left = clock ∧ d.right = zeroClock then
    .ok { i with upper := some (i.upper.elim d.bound (min · d.bound)) }
  else if d.left = zeroClock ∧ d.right = clock then
    if d.bound = Text.minSigned then .error (.lowerOutOfRange d.bound clock)
    else .ok { i with lower := max i.lower (-d.bound) }
  else .ok i

def SymbolicState.interval (s : SymbolicState) (clock : String) : Except Flaw ClockInterval :=
  s.differences.foldlM (Difference.narrow clock) .full

/-! ### Edges -/

/-- An edge of a process, with the label of its synchronisation. -/
structure WitnessEdge where
  process : String
  source : String
  target : String
  sync : Option String
  deriving DecidableEq, Repr

/-- Forget the synchronisation. -/
def WitnessEdge.step (e : WitnessEdge) : EdgeStep := ⟨e.process, e.source, e.target⟩

/-- The channel of a synchronisation: `send!` and `send?` are both on `send`. -/
def channel? (sync : String) : Option String :=
  match (Text.trimChars sync.toList).reverse with
  | [] => none
  | c :: cs =>
    if c = '!' ∨ c = '?' then
      let name := Text.trimChars cs.reverse
      if name.isEmpty then none else some (String.ofList name)
    else none

def isSending (sync : String) : Bool := (Text.trimEndChars sync.toList).getLast? == some '!'

/-- The action of edges taken together: the channel of the first sending one, and without such an
edge the channel of the first one that synchronises. -/
def actionOf (edges : List WitnessEdge) : Option String :=
  let syncs := edges.filterMap (·.sync)
  (syncs.find? isSending <|> syncs.head?).bind channel?

/-! ### Witnesses -/

/-- Edges taken together, and the position of the state they lead to. -/
structure Move where
  edges : List WitnessEdge
  target : Nat
  deriving DecidableEq, Repr

/-- A run as the verifier reports it. -/
structure Witness where
  states : List SymbolicState
  moves : List Move
  deriving DecidableEq, Repr

namespace Witness

/-- The transition of a move against a reference clock; none if the move synchronises on no
action. -/
def transition? (w : Witness) (clock : String) (m : Move) : Except Flaw (Option Transition) :=
  match w.states[m.target]? with
  | none => .error (.missingState m.target)
  | some state =>
    match actionOf m.edges with
    | none => .ok none
    | some action => do
      return some ⟨action, m.edges.map (·.step), ← state.interval clock⟩

def transitions (w : Witness) (clock : String) : List Move → Except Flaw (List Transition)
  | [] => .ok []
  | m :: ms => do
    let first ← w.transition? clock m
    let rest ← w.transitions clock ms
    return first.toList ++ rest

def trace (w : Witness) (clock : String) : Except Flaw Trace := do
  if w.states.isEmpty then .error .noStates
  let transitions ← w.transitions clock w.moves
  (Trace.ofTransitions clock transitions).mapError .order

end Witness

end TimedPatterns
