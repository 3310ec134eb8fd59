import TimedPatterns.Markup.Reader
import TimedPatterns.Witness.Basic

/-!
# Witness documents

The verbose form of a witness is a document with a `<trace>` element, either as its root or as a
child of it. The children of the trace define things under ids, and refer to each other by them:

- `<clock id name>`, `<process id name>`, `<location id process name>` and
  `<edge id process from to sync>`, where `from` and `to` are locations;
- `<dbm_instance id>` with children `<clockbound clock1 clock2 bound comp>`, each the constraint
  `clock1 - clock2` within `bound`;
- `<node id dbm_instance>`, the states in order;
- `<transition to edges>`, the moves in order, with a list of edges separated by blanks.

Other children do not matter. The order of the children matters only among nodes, among
transitions, and where one definition takes the place of another.
-/

namespace TimedPatterns

/-- The value of an attribute that has to be there. -/
def Element.required (e : Element) (name : String) : Except Flaw String :=
  match e.attribute? name with
  | some value => .ok value
  | none => .error (.missingAttribute e.name name)

namespace Document

open Text

/-! ### Definitions -/

/-- What the children of a trace define, by id, the latest first. -/
structure Definitions where
  clocks : List (String × String) := []
  processes : List (String × String) := []
  locations : List (String × Element) := []
  edges : List (String × Element) := []
  instances : List (String × Element) := []

/-- The clock of a name. The clock that always stands at zero may be qualified. -/
def clockOfName (name : String) : String :=
  if name = zeroClock ∨ ('.' :: zeroClock.toList).isSuffixOf name.toList then zeroClock else name

/-- Add a definition under an id that is still free. -/
def define (table : List (String × Element)) (e : Element) :
    Except Flaw (List (String × Element)) := do
  let id ← e.required "id"
  if (table.lookup id).isSome then .error (.duplicateId e.name id) else .ok ((id, e) :: table)

/-- Add what a child of the trace defines, if anything. -/
def Definitions.add (d : Definitions) (e : Element) : Except Flaw Definitions :=
  if e.name = "clock" then do
    let name ← e.required "name"
    let id ← e.required "id"
    return { d with clocks := (id, clockOfName name) :: d.clocks }
  else if e.name = "process" then do
    let id ← e.required "id"
    let name ← e.required "name"
    return { d with processes := (id, name) :: d.processes }
  else if e.name = "location" then do return { d with locations := ← define d.locations e }
  else if e.name = "edge" then do return { d with edges := ← define d.edges e }
  else if e.name = "dbm_instance" then do return { d with instances := ← define d.instances e }
  else .ok d

def definitions (trace : Element) : Except Flaw Definitions :=
  trace.children.foldlM Definitions.add {}

/-- What a table has under an id. -/
def refer {α : Type} (kind : String) (table : List (String × α)) (id : String) : Except Flaw α :=
  match table.lookup id with
  | some value => .ok value
  | none => .error (.unknownReference kind id)

/-! ### States -/

/-- The bound of a constraint, none if it is infinite. -/
def bound? (text : String) : Except Flaw (Option Int) :=
  let text := trim text
  if text = "inf" ∨ text = "INF" ∨ text = "infinity" then .ok none
  else match readSigned text.toList with
    | .ok bound => .ok (some bound)
    | .error error => .error (.badBound text error)

def isStrict : Option String → Except Flaw Bool
  | none => .ok false
  | some text =>
    let text := trim text
    if text = "<=" then .ok false
    else if text = "<" then .ok true
    else .error (.unknownComparison text)

/-- The constraint of a clock bound, none if the bound is infinite. -/
def difference? (d : Definitions) (e : Element) : Except Flaw (Option Difference) := do
  match ← bound? (← e.required "bound") with
  | none => return none
  | some bound =>
    let strict ← isStrict (e.attribute? "comp")
    let left ← refer "clock" d.clocks (← e.required "clock1")
    let right ← refer "clock" d.clocks (← e.required "clock2")
    return some ⟨left, right, bound, strict⟩

def differences (d : Definitions) : List Element → Except Flaw (List Difference)
  | [] => .ok []
  | e :: es => do
    let first ← difference? d e
    let rest ← differences d es
    return first.toList ++ rest

def state (d : Definitions) (node : Element) : Except Flaw SymbolicState :=
  match node.attribute? "dbm_instance" with
  | none => .ok ⟨[]⟩
  | some id => do
    let found ← refer "dbm_instance" d.instances id
    return ⟨← differences d (found.childrenNamed "clockbound")⟩

/-- The states of some nodes with their ids, in order. `known` are the ids of the nodes before
them. -/
def states (d : Definitions) (known : List String) :
    List Element → Except Flaw (List (String × SymbolicState))
  | [] => .ok []
  | node :: nodes => do
    let id ← node.required "id"
    if id ∈ known then .error (.duplicateNode id)
    let first ← state d node
    let rest ← states d (id :: known) nodes
    return (id, first) :: rest

/-! ### Moves -/

/-- The name of a process, which is its id if it is not defined. -/
def processName (d : Definitions) (id : String) : String := (d.processes.lookup id).getD id

/-- The name of a location, and its process if it says so. -/
def locationName (d : Definitions) (id : String) : Except Flaw (String × Option String) := do
  let e ← refer "location" d.locations id
  return ((e.attribute? "name").getD id, (e.attribute? "process").map (processName d))

/-- The edge of an id. Its process is the one it names, or the one of its source, or what stands
before the first point of its id. -/
def edge (d : Definitions) (id : String) : Except Flaw WitnessEdge := do
  let e ← refer "edge" d.edges id
  let (source, sourceProcess) ← locationName d (← e.required "from")
  let (target, _) ← locationName d (← e.required "to")
  let process := match e.attribute? "process" with
    | some process => processName d process
    | none => sourceProcess.getD (String.ofList (id.toList.takeWhile (· != '.')))
  let sync := (e.attribute? "sync").map trim
  return ⟨process, source, target, sync.filter (· ≠ "")⟩

def move (d : Definitions) (nodes : List String) (transition : Element) : Except Flaw Move := do
  let target ← transition.required "to"
  match nodes.idxOf? target with
  | none => .error (.unknownNode target)
  | some position =>
    return ⟨← (words ((transition.attribute? "edges").getD "")).mapM (edge d), position⟩

/-! ### Documents -/

def traceElement (root : Element) : Except Flaw Element :=
  if root.name = "trace" then .ok root
  else match (root.childrenNamed "trace").head? with
    | some trace => .ok trace
    | none => .error (.noTrace root.name)

def witness (trace : Element) : Except Flaw Witness := do
  let d ← definitions trace
  let nodes ← states d [] (trace.childrenNamed "node")
  let moves ← (trace.childrenNamed "transition").mapM (move d (nodes.map (·.1)))
  return ⟨nodes.map (·.2), moves⟩

def read (text : String) : Except Flaw Witness :=
  match Markup.read text with
  | .error (line, column) => .error (.notDocument line column)
  | .ok root => do witness (← traceElement root)

end Document

end TimedPatterns
