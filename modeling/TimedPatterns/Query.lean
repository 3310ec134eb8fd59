import TimedPatterns.Text.Blank
import TimedPatterns.Text.WordChar

/-!
# Queries

A query asks the verifier whether a state is reachable: `E<>` and a formula over locations. The
patterns that were found are ruled out by adding to the formula that no monitor is in its `pass`
location.

The conjunction that is added binds tighter than `||`, `or` and `imply`, so a formula in which
one of these occurs is put in parentheses first.
-/

namespace TimedPatterns

/-- The text of a query. -/
structure Query where
  text : String
  deriving DecidableEq, Repr

namespace Query

open Text

/-- A query as its author wrote it, without the blanks around it. -/
def raw (text : String) : Query := ⟨trim text⟩

/-- Reach all the goals at once; without any, reach anything. -/
def reach (goals : List String) : Query :=
  let formula := " && ".intercalate goals
  if formula = "" then ⟨"E<> true"⟩ else ⟨"E<> " ++ formula⟩

/-- The formula of a query that asks whether a state is reachable. -/
def formula? (q : Query) : Option (List Char) :=
  (dropPrefix? "E<>".toList q.text.toList).map trimChars

def isReachability (q : Query) : Bool := q.formula?.isSome

/-! ### Loose operators -/

/-- Whether `word` stands at this place with boundaries on both sides. -/
def wordAt (word : List Char) (before : Option Char) (cs : List Char) : Bool :=
  isBoundary before cs.head? &&
    match dropPrefix? word cs with
    | none => false
    | some rest => isBoundary word.getLast? rest.head?

/-- Whether an operator that binds looser than a conjunction occurs, `before` being the character
before the text. -/
def isLooseAfter (before : Option Char) : List Char → Bool
  | [] => false
  | c :: cs =>
    (dropPrefix? ['|', '|'] (c :: cs)).isSome
      || wordAt ['o', 'r'] before (c :: cs)
      || wordAt ['i', 'm', 'p', 'l', 'y'] before (c :: cs)
      || isLooseAfter (some c) cs

def isLoose (formula : List Char) : Bool := isLooseAfter none formula

/-! ### Exclusions -/

/-- The conjunct that keeps a monitor out of its `pass` location. -/
def exclusion (monitor : String) : String := s!" && !{monitor}.pass"

/-- The query with none of the monitors in its `pass` location; none if it does not ask whether a
state is reachable and there is something to exclude. -/
def excluding (q : Query) : List String → Option Query
  | [] => some q
  | monitor :: monitors =>
    q.formula?.map fun formula =>
      let formula := String.ofList formula
      let formula := if isLoose formula.toList then s!"E<> ({formula})" else s!"E<> {formula}"
      ⟨formula ++ String.join ((monitor :: monitors).map exclusion)⟩

end Query

end TimedPatterns
