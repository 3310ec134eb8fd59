import TimedPatterns.Instrumentation

/-!
# Models

A model is the markup of a network of timed automata. It is instrumented by inserting text into
it, without reading the markup in full:

- the templates go directly before the first `<system>`;
- their names go before the semicolon of the last `system` line between that `<system>` and the
  next `</system>`;
- if a signal is sent or received, its clock is declared, unless the declarations before the
  first template declare it already.

The clock is declared in the first `<declaration>` that opens before the first template. If there
is none, a declaration is added behind the first `<nta>` tag of the model; this place is expected
to lie before the templates, and the program crashes on a model in which it does not.
-/

namespace TimedPatterns.Model

open Text

/-- Why a model is not instrumented. -/
inductive Refusal where
  | noSystem
  | openSystem
  | noSystemLine
  | noNetwork
  deriving DecidableEq, Repr

def Refusal.message : Refusal → String
  | .noSystem => "no <system> element"
  | .openSystem => "unterminated <system> element"
  | .noSystemLine => "no `system` line in <system>"
  | .noNetwork => "no <nta> element"

/-- The outcome of instrumenting a model: its new text, a refusal, or a crash. If the clock would
have to be declared behind the templates, the program takes the text between two places that have
crossed, and crashes. `crossed` stands for this crash; it is no answer that the program gives. -/
inductive Outcome where
  | text (model : List Char)
  | refused (why : Refusal)
  | crossed
  deriving DecidableEq, Repr

/-! ### System lines -/

/-- What comes before and what comes from the first semicolon on, for a text in which a `system`
line begins after any blanks. -/
def systemLine? (cs : List Char) : Option (List Char × List Char) := do
  let rest ← dropPrefix? "system".toList (cs.dropWhile isBlank)
  match rest with
  | [] => none
  | c :: cs' =>
    if isBlank c ∧ cs'.contains ';' then some (cs.span (· != ';')) else none

/-- A `system` line that begins at this place: at the beginning of a line, or directly behind an
opening tag. -/
def systemLineAt? (lineStart : Bool) (cs : List Char) : Option (List Char × List Char) :=
  (if lineStart then systemLine? cs else none) <|> do
    let rest ← dropPrefix? "<system>".toList cs
    let (before, after) ← systemLine? rest
    return ("<system>".toList ++ before, after)

/-- Cut a text before the semicolon of its last `system` line. A line is looked for at every
place, and behind a line that was found only from its semicolon on. -/
def cutSystem? (lineStart : Bool) (skip : Nat) : List Char → Option (List Char × List Char)
  | [] => none
  | c :: cs =>
    let further (skip : Nat) : Option (List Char × List Char) :=
      (cutSystem? (c == '\n') skip cs).map fun (before, after) => (c :: before, after)
    match skip with
    | skip + 1 => further skip
    | 0 =>
      match systemLineAt? lineStart (c :: cs) with
      | none => further 0
      | some (before, after) => further before.length <|> some (before, after)

/-! ### Declarations -/

/-- Whether `name` stands at some place before the next semicolon, with boundaries on both sides,
`before` being the character before the text. -/
def declaresAfter (name : List Char) (before : Option Char) : List Char → Bool
  | [] => standsAt before []
  | c :: cs => standsAt before (c :: cs) || (c != ';' && declaresAfter name (some c) cs)
where
  /-- Whether `name` stands at this place. -/
  standsAt (before : Option Char) (cs : List Char) : Bool :=
    isBoundary before cs.head? &&
      match dropPrefix? name cs with
      | none => false
      | some rest => isBoundary (name.getLast? <|> before) rest.head?

/-- Whether declarations declare a clock: the word `clock` stands in them, and the name of the
clock behind it before the next semicolon, `before` being the character before the text. -/
def declaresFrom (name : List Char) (before : Option Char) : List Char → Bool
  | [] => false
  | c :: cs =>
    (isBoundary before (some c) &&
      match dropPrefix? "clock".toList (c :: cs) with
      | none => false
      -- behind the word, the character before is its last one
      | some rest => isBoundary (some 'k') rest.head? && declaresAfter name (some 'k') rest)
    || declaresFrom name (some c) cs

def declaresClock (declarations name : List Char) : Bool := declaresFrom name none declarations

/-- What stands before and what stands behind the first tag of the network. -/
def cutNetwork? : List Char → Option (List Char × List Char)
  | [] => none
  | c :: cs =>
    match networkTag? (c :: cs) with
    | some (tag, rest) => some (tag, rest)
    | none => (cutNetwork? cs).map fun (before, after) => (c :: before, after)
where
  /-- The tag of the network that begins here, and what follows it. -/
  networkTag? (cs : List Char) : Option (List Char × List Char) := do
    let rest ← dropPrefix? "<nta".toList cs
    match rest with
    | '>' :: rest => some ("<nta>".toList, rest)
    | d :: ds =>
      if isBlank d then
        match ds.span (· != '>') with
        | (attributes, '>' :: rest) => some ("<nta".toList ++ d :: attributes ++ ['>'], rest)
        | _ => none
      else none
    | [] => none

/-! ### Instrumenting -/

/-- The text of the templates, each on lines of its own. -/
def templateText (templates : List Template) : List Char :=
  templates.flatMap fun t => t.render.toList ++ ['\n']

/-- The names that are added to the `system` line. -/
def nameText (templates : List Template) : List Char :=
  ", ".toList ++ (", ".intercalate (templates.map (·.name))).toList

/-- Where the clock is declared: what stands before the place, and what is put there. -/
inductive ClockPlace where
  | declared
  | place (before insertion : List Char)
  | missing (why : Refusal)
  deriving DecidableEq, Repr

/-- Where a model declares its clock. `globals` is the text before its first template. -/
def clockPlace (model globals : List Char) (clock : String) : ClockPlace :=
  match cutFirst? "<declaration>".toList globals with
  | some (before, declarations) =>
    if declaresClock declarations clock.toList then .declared
    else .place (before ++ "<declaration>".toList) s!"\nclock {clock};\n".toList
  | none =>
    match cutNetwork? model with
    | some (before, _) => .place before s!"\n<declaration>clock {clock};</declaration>".toList
    | none => .missing .noNetwork

/-- Add the templates of an instrumentation to a model. -/
def instrumentChars (model : List Char) (p : Instrumentation) : Outcome :=
  if p.templates.isEmpty then .text model
  else match cutFirst? "<system>".toList model with
    | none => .refused .noSystem
    | some (head, tail) =>
      match cutFirst? "</system>".toList tail with
      | none => .refused .openSystem
      | some (system, rest) =>
        match cutSystem? true 0 ("<system>".toList ++ system) with
        | none => .refused .noSystemLine
        | some (line, lineEnd) =>
          let behind := templateText p.templates ++ line ++ nameText p.templates ++ lineEnd
            ++ "</system>".toList ++ rest
          -- what holds for all of the model is declared before its first template
          let globals := ((cutFirst? "<template>".toList head).map (·.1)).getD head
          if p.input.isSome || p.observed.isSome then
            match clockPlace model globals p.clock with
            | .missing why => .refused why
            | .declared => .text (head ++ behind)
            | .place before insertion =>
              -- the place of the declaration is a prefix of the whole model, which may end behind
              -- the cut
              match dropPrefix? before head with
              | some between => .text (before ++ insertion ++ between ++ behind)
              | none => .crossed
          else .text (head ++ behind)

def instrument (model : String) (p : Instrumentation) : Outcome := instrumentChars model.toList p

end TimedPatterns.Model
