import TimedPatterns.Text.WordChar
import TimedPatterns.Witness.Basic

/-!
# Witness listings

The readable form of a witness is a listing of blocks. A block `State:` gives the locations, then
constraints `x-y<=k` and `x-y<k`, then the values of variables; a block `Transitions:` gives one
edge to a line, `P.a->P.b { guard, sync, update }`. Blocks of the two kinds alternate, and the
listing begins and ends with a state.

Lines before the first state are a banner. In a state, a line that opens a parenthesis lists the
locations, and every other line is searched for constraints. Among the edges, a line that begins
with `Delay` is passed over.
-/

namespace TimedPatterns.Listing

open Text

/-! ### Names -/

def isClockChar (c : Char) : Bool :=
  isWord c || c == '.' || c == '[' || c == ']' || c == '(' || c == ')'

def isProcessChar (c : Char) : Bool := isWord c || c == '[' || c == ']' || c == '(' || c == ')'

def isLocationChar (c : Char) : Bool := isWord c || c == '[' || c == ']'

/-- A name of at least one character, and what follows it. -/
def name? (p : Char → Bool) (cs : List Char) : Option (List Char × List Char) :=
  let name := cs.takeWhile p
  if name.isEmpty then none else some (name, cs.dropWhile p)

/-! ### Constraints -/

def isBoundText : List Char → Bool
  | '-' :: cs => !cs.isEmpty && cs.all fun c => (digit? c).isSome
  | cs => !cs.isEmpty && cs.all fun c => (digit? c).isSome

/-- The comparison before a bound, as whether it is strict. -/
def comparison? : List Char → Option (Bool × List Char)
  | '<' :: '=' :: cs => some (false, cs)
  | '<' :: cs => some (true, cs)
  | _ => none

/-- The parts of a word that has the form of a constraint: its clocks, whether it is strict, and
the text of its bound. -/
def differenceParts? (word : List Char) : Option (List Char × List Char × Bool × List Char) := do
  let (left, rest) ← name? isClockChar word
  let rest ← dropPrefix? ['-'] rest
  let (right, rest) ← name? isClockChar rest
  let (strict, bound) ← comparison? rest
  if isBoundText bound then some (left, right, strict, bound) else none

/-- The constraint that a word is, if it has the form of one. -/
def difference? (word : List Char) : Except (List Char × NumeralError) (Option Difference) :=
  match differenceParts? word with
  | none => .ok none
  | some (left, right, strict, bound) =>
    match readSigned bound with
    | .error error => .error (word, error)
    | .ok bound => .ok (some ⟨String.ofList left, String.ofList right, bound, strict⟩)

def differences : List (List Char) → Except (List Char × NumeralError) (List Difference)
  | [] => .ok []
  | word :: rest => do
    let first ← difference? word
    let rest ← differences rest
    return first.toList ++ rest

/-! ### Edges -/

/-- Whether a text is a synchronisation: a name that begins with a letter or an underscore of
ASCII, then `!` or `?`. -/
def isSync : List Char → Bool
  | [] => false
  | c :: cs =>
    (c.isAlpha || c == '_')
      && match cs.reverse with
        | [] => false
        | last :: name => (last == '!' || last == '?') && name.all isLocationChar

/-- The first synchronisation among the parts that commas separate. -/
def sync? (body : List Char) : Option String :=
  ((((pieces (· == ',') body).map trimChars).find? isSync)).map String.ofList

/-- The parts of an edge as it is listed. -/
structure ListedEdge where
  process : String
  source : String
  targetProcess : String
  target : String
  sync : Option String
  deriving DecidableEq, Repr

/-- What stands between the braces at the end of a line. -/
def braced? (cs : List Char) : Option (List Char) := do
  let rest ← dropPrefix? ['\x7b'] (cs.dropWhile isBlank)
  match rest.reverse with
  | '\x7d' :: body => if body.contains '\n' then none else some body.reverse
  | _ => none

/-- The edge that a line has the form of. -/
def listedEdge? (line : List Char) : Option ListedEdge := do
  let (process, rest) ← name? isProcessChar line
  let rest ← dropPrefix? ['.'] rest
  let (source, rest) ← name? isLocationChar rest
  let rest ← dropPrefix? ['-', '>'] rest
  let (targetProcess, rest) ← name? isProcessChar rest
  let rest ← dropPrefix? ['.'] rest
  let (target, rest) ← name? isLocationChar rest
  let body ← braced? rest
  return ⟨String.ofList process, String.ofList source, String.ofList targetProcess,
    String.ofList target, sync? body⟩

def edge (number : Nat) (line : List Char) : Except Flaw WitnessEdge :=
  match listedEdge? line with
  | none => .error (.badEdge number (String.ofList line))
  | some e =>
    if e.process = e.targetProcess then .ok ⟨e.process, e.source, e.target, e.sync⟩
    else .error (.edgeBetweenProcesses number (String.ofList line) e.process e.targetProcess)

/-! ### Blocks -/

/-- What a line is, its blank ends trimmed. -/
inductive Line where
  | blank
  | state
  | transitions
  | content (text : List Char)
  deriving DecidableEq, Repr

/-- What a trimmed line is. -/
def Line.ofChars (cs : List Char) : Line :=
  if cs = [] then .blank
  else if cs = "State:".toList then .state
  else if cs = "Transitions:".toList ∨ cs = "Transition:".toList then .transitions
  else .content cs

/-- What has been read of a listing: its banner, or states and moves with a state or a move
still open. States, moves and edges are kept with the latest first. -/
inductive Progress where
  | banner
  | state (states : List SymbolicState) (moves : List Move) (constraints : List Difference)
  | edges (states : List SymbolicState) (moves : List Move) (taken : List WitnessEdge)
  deriving DecidableEq, Repr

/-- Read one line. -/
def Progress.read (number : Nat) : Progress → Line → Except Flaw Progress
  | progress, .blank => .ok progress
  | .banner, .state => .ok (.state [] [] [])
  | .state states moves constraints, .state => .ok (.state (⟨constraints⟩ :: states) moves [])
  | .edges states moves taken, .state =>
    .ok (.state states (⟨taken.reverse, states.length⟩ :: moves) [])
  | .banner, .transitions => .error (.transitionsBeforeState number)
  | .state states moves constraints, .transitions =>
    .ok (.edges (⟨constraints⟩ :: states) moves [])
  | .edges .., .transitions => .error (.repeatedTransitions number)
  | .banner, .content _ => .ok .banner
  | .state states moves constraints, .content text =>
    -- a line in parentheses lists the locations of a state, which no transition needs
    if text.head? = some '(' then .ok (.state states moves constraints)
    else match differences (wordsChars text) with
      | .error (token, error) => .error (.badToken number (String.ofList token) error)
      | .ok new => .ok (.state states moves (constraints ++ new))
  | .edges states moves taken, .content text =>
    if (dropPrefix? "Delay".toList text).isSome then .ok (.edges states moves taken)
    else do return .edges states moves ((← edge number text) :: taken)

def readLines (number : Nat) (progress : Progress) : List Line → Except Flaw Progress
  | [] => .ok progress
  | line :: lines => do readLines (number + 1) (← progress.read number line) lines

/-- The witness that has been read when the listing ends. -/
def Progress.finish : Progress → Except Flaw Witness
  | .banner => .error .noStateBlock
  | .state states moves constraints =>
    .ok ⟨(⟨constraints⟩ :: states).reverse, moves.reverse⟩
  | .edges .. => .error .endsInTransition

def read (text : String) : Except Flaw Witness := do
  let lines := (pieces (· == '\n') text.toList).map fun cs => Line.ofChars (trimChars cs)
  (← readLines 1 .banner lines).finish

end TimedPatterns.Listing
