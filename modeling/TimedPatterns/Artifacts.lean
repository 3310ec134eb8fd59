import TimedPatterns.World

/-!
# Artifacts

A family of files that one step of a search needs: queries, instrumented models, witnesses,
compiled models and renderings. The names of a family begin with a tag of its own, made of a
stem, the number of the process and a counter.

A family lives in a temporary directory of its own, which is removed when the family is released;
or it is held, and its files stay in a directory of the user's choice.
-/

namespace TimedPatterns

/-- The directory of a family of files, and the beginning of their names. -/
structure Artifacts where
  directory : String
  held : Bool
  tag : String
  deriving DecidableEq, Repr

namespace Artifacts

/-! ### Names -/

def tagOf (stem : String) (processId number : Nat) : String := s!"{stem}-{processId}-{number}"

def file (a : Artifacts) (extension : String) : String :=
  Path.join a.directory s!"{a.tag}.{extension}"

def fileNamed (a : Artifacts) (name extension : String) : String :=
  Path.join a.directory s!"{a.tag}-{name}.{extension}"

/-- The beginning of a path, for programs that put an ending of their own behind it. -/
def start (a : Artifacts) (name : String) : String := Path.join a.directory s!"{a.tag}-{name}"

/-! ### Life -/

def freshTag (stem : String) : Session String :=
  fun w => (tagOf stem w.processId (w.tags + 1), { w with tags := w.tags + 1 })

/-- The temporary directory with the given number. The number stands for the letters that the
system draws at random until the name is free. -/
def scopeOf (scratch : String) (number : Nat) : String :=
  Path.join scratch s!"pattern-finder-{number}"

def freshScope : Session (Except SystemError String) := fun w =>
  let path := scopeOf w.scratch w.scopes
  match w.files.makeDirectory path with
  | .ok files => (.ok path, { w with files, scopes := w.scopes + 1 })
  | .error error => (.error error, { w with scopes := w.scopes + 1 })

/-- Begin a family: held in the given directory, which is made if it is not there, or in a
temporary one. -/
def create (hold : Bool) (directory stem : String) : Session (Except SystemError Artifacts) := do
  if hold then
    match ← Session.makeDirectories directory with
    | .error error => return .error error
    | .ok () => return .ok ⟨directory, true, ← freshTag stem⟩
  else
    match ← freshScope with
    | .error error => return .error error
    | .ok scope => return .ok ⟨scope, false, ← freshTag stem⟩

/-- End a family: a temporary directory is removed with all it holds. -/
def release (a : Artifacts) : Session Unit := fun w =>
  if a.held then ((), w)
  else match w.files.resolve a.directory with
    | .ok target => ((), { w with files := w.files.removeTree target.place })
    | .error _ => ((), w)

def within {ε α : Type} (hold : Bool) (directory stem : String) (onError : SystemError → ε)
    (use : Artifacts → Session (Except ε α)) : Session (Except ε α) := do
  match ← create hold directory stem with
  | .error error => return .error (onError error)
  | .ok a =>
    let result ← use a
    a.release
    return result

end Artifacts

end TimedPatterns
