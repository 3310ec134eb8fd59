/-!
# Arguments

Reading the arguments of a command line. A grammar lists the options that take a value, the flags
that take none, the values that are told by their position, and the names of commands. What is
read is a record that each value changes in its own way.

- An option is `--name value` or `--name=value`. The argument behind an option is its value unless
  it looks like an option itself; some options, and some positions, take such arguments as well.
- Behind `--` there are only values told by their position.
- A value is read when the next one begins, or at the end. So the first wrong value decides the
  error, but an argument that cannot be placed at all comes before the value in front of it.
- Reading stops at the name of a command. `help` asks for help, and so do `--help` and `-h`.
-/

namespace TimedPatterns.CommandLine

/-- What is wrong with the arguments, or what is asked for in place of running a command. -/
inductive UsageError where
  | missingArgument
  | unknownArgument
  | invalidValue
  | badValue (message : String)
  | repeated
  | surplusValue
  | unknownCommand
  | missingCommand
  | nothingGiven
  | help
  deriving DecidableEq, Repr

def UsageError.message : UsageError → String
  | .missingArgument => "a required argument is missing"
  | .unknownArgument => "an argument is unknown"
  | .invalidValue => "the value of an argument is missing or not among its choices"
  | .badValue message => message
  | .repeated => "an argument is given more than once"
  | .surplusValue => "a value is given to an argument that takes none"
  | .unknownCommand => "the command is unknown"
  | .missingCommand => "the command is missing"
  | .nothingGiven => "no arguments are given"
  | .help => "commands: verify, trace, run, run-many, find, find-all, find-query, find-all-query"

/-! ### Grammars -/

/-- A value, given with its name or by its position, and the change it makes. -/
structure Parameter (α : Type) where
  name : String
  required : Bool := false
  repeatable : Bool := false
  hyphens : Bool := false
  read : String → Except UsageError (α → α)

/-- A flag and the change it makes. -/
structure Flag (α : Type) where
  name : String
  raise : α → α

/-- What arguments there are. -/
structure Grammar (α : Type) where
  options : List (Parameter α) := []
  flags : List (Flag α) := []
  positions : List (Parameter α) := []
  commands : List String := []

/-- The parameter of a part of a record. -/
def Parameter.lift {α β : Type} (change : (α → α) → β → β) (p : Parameter α) : Parameter β :=
  { p with read := fun text => (p.read text).map change }

def Flag.lift {α β : Type} (change : (α → α) → β → β) (f : Flag α) : Flag β :=
  ⟨f.name, change f.raise⟩

def Grammar.lift {α β : Type} (change : (α → α) → β → β) (g : Grammar α) : Grammar β where
  options := g.options.map (·.lift change)
  flags := g.flags.map (·.lift change)
  positions := g.positions.map (·.lift change)
  commands := g.commands

/-- The arguments of two grammars together, in this order. -/
def Grammar.append {α : Type} (g h : Grammar α) : Grammar α where
  options := g.options ++ h.options
  flags := g.flags ++ h.flags
  positions := g.positions ++ h.positions
  commands := g.commands ++ h.commands

instance {α : Type} : Append (Grammar α) := ⟨Grammar.append⟩

/-! ### Arguments by their looks -/

/-- What an argument looks like. -/
inductive Looks where
  | dashes
  | long (name : String) (value : Option String)
  | short (letters : List Char)
  | plain
  deriving DecidableEq, Repr

def looks (argument : String) : Looks :=
  match argument.toList with
  | ['-', '-'] => .dashes
  | '-' :: '-' :: rest =>
    match rest.span (· != '=') with
    | (name, '=' :: value) => .long (String.ofList name) (some (String.ofList value))
    | (name, _) => .long (String.ofList name) none
  | '-' :: letter :: letters => .short (letter :: letters)
  | _ => .plain

/-! ### Reading -/

/-- A value that is not read yet: an option that has none, or a parameter with its text. -/
inductive Pending (α : Type) where
  | nothing
  | awaiting (p : Parameter α)
  | filled (p : Parameter α) (text : String)

/-- How far the arguments are read: the record, the names of what was read, what is pending, the
positions that are to come, and whether only positions are left. -/
structure Reading (α : Type) where
  record : α
  given : List String := []
  pending : Pending α := .nothing
  positions : List (Parameter α)
  literal : Bool := false

namespace Reading

variable {α : Type}

/-- Note a name; only what is repeatable may have been given before. -/
def note (r : Reading α) (name : String) (repeatable : Bool) : Except UsageError (Reading α) :=
  if !repeatable && r.given.contains name then .error .repeated
  else .ok { r with given := name :: r.given, pending := .nothing }

def take (r : Reading α) (p : Parameter α) (text : String) : Except UsageError (Reading α) := do
  let r ← r.note p.name p.repeatable
  let change ← p.read text
  return { r with record := change r.record }

/-- Read what is pending. -/
def settle (r : Reading α) : Except UsageError (Reading α) :=
  match r.pending with
  | .nothing => .ok r
  | .awaiting _ => .error .invalidValue
  | .filled p text => r.take p text

def raise (r : Reading α) (f : Flag α) : Except UsageError (Reading α) := do
  let r ← r.note f.name false
  return { r with record := f.raise r.record }

/-- The option whose value is to come. -/
def awaited? (r : Reading α) : Option (Parameter α) :=
  match r.pending with
  | .awaiting p => some p
  | _ => none

/-- Whether the option whose value is to come takes any argument. -/
def awaitsAnything (r : Reading α) : Bool := r.awaited?.any (·.hyphens)

/-- Whether the next position takes arguments that look like options. -/
def placesAnything (r : Reading α) : Bool := r.positions.head?.any (·.hyphens)

end Reading

namespace Grammar

variable {α : Type}

def isCommand (g : Grammar α) (argument : String) : Bool :=
  !g.commands.isEmpty && (argument == "help" || g.commands.contains argument)

/-- The error of an argument that no position is left for. -/
def surplus (g : Grammar α) (r : Reading α) (argument : String) : UsageError :=
  if g.commands.isEmpty || r.literal && g.isCommand argument then .unknownArgument
  else .unknownCommand

/-- Take an argument by its position. The last position may be repeated, and then takes all that
follows if it takes arguments that look like options. -/
def place (g : Grammar α) (argument : String) (r : Reading α) : Except UsageError (Reading α) :=
  match r.positions with
  | [] => .error (g.surplus r argument)
  | p :: ps => do
    let r ← r.settle
    return { r with
      pending := .filled p argument
      positions := if p.repeatable then p :: ps else ps
      literal := r.literal || p.repeatable && p.hyphens }

/-- Take an argument as a value: of the option that awaits one, or by its position. -/
def value (g : Grammar α) (argument : String) (r : Reading α) : Except UsageError (Reading α) :=
  match r.awaited? with
  | some p => .ok { r with pending := .filled p argument }
  | none => g.place argument r

/-- Take an argument that names an option or a flag. -/
def named (g : Grammar α) (argument name : String) (value? : Option String) (r : Reading α) :
    Except UsageError (Reading α) :=
  match g.options.find? (·.name == name) with
  | some p =>
    match value? with
    | some text => do (← r.settle).take p text
    | none => do return { ← r.settle with pending := .awaiting p }
  | none =>
    match g.flags.find? (·.name == name), value? with
    | some _, some _ => .error .surplusValue
    | some f, none => do (← r.settle).raise f
    | none, _ =>
      if name = "help" then
        if value?.isSome then .error .surplusValue else do let _ ← r.settle; .error .help
      else if r.placesAnything then g.value argument r
      else .error .unknownArgument

/-- Take an argument of letters. There is only one letter that means something. -/
def letters (g : Grammar α) (argument : String) (letters : List Char) (r : Reading α) :
    Except UsageError (Reading α) :=
  if r.placesAnything && letters.any (· != 'h') then g.value argument r
  else if letters.head? = some 'h' then do let _ ← r.settle; .error .help
  else .error .unknownArgument

def argument (g : Grammar α) (argument : String) (r : Reading α) :
    Except UsageError (Reading α) :=
  if r.literal then g.place argument r
  else if r.awaitsAnything then g.value argument r
  else match looks argument with
    | .dashes => .ok { r with literal := true }
    | .long name value? => g.named argument name value? r
    | .short letters => g.letters argument letters r
    | .plain => g.value argument r

/-- The error of asking for help on commands: none of them has commands of its own. -/
def helpOn (g : Grammar α) : List String → UsageError
  | [] => .help
  | [name] => if g.isCommand name then .help else .unknownCommand
  | _ => .unknownCommand

/-- Read arguments up to the name of a command, and keep what is behind it. -/
def readFrom (g : Grammar α) :
    List String → Reading α → Except UsageError (Reading α × Option (String × List String))
  | [], r => .ok (r, none)
  | argument :: rest, r =>
    if !r.literal && r.awaited?.isNone && g.isCommand argument then
      if argument = "help" then .error (g.helpOn rest) else .ok (r, some (argument, rest))
    else do readFrom g rest (← g.argument argument r)

/-- Read what is pending at the end, and see that nothing is missing. -/
def finish (g : Grammar α) (r : Reading α) : Except UsageError (Reading α) := do
  let r ← r.settle
  if (g.options ++ g.positions).all fun p => !p.required || r.given.contains p.name then return r
  else .error .missingArgument

def start (g : Grammar α) (record : α) : Reading α := { record, positions := g.positions }

/-- Read all arguments, there being no commands. -/
def read (g : Grammar α) (record : α) (arguments : List String) : Except UsageError α := do
  let (r, _) ← g.readFrom arguments (g.start record)
  return (← g.finish r).record

end Grammar

end TimedPatterns.CommandLine
