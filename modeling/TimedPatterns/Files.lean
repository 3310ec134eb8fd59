import TimedPatterns.Path
import TimedPatterns.Text.Utf8
import TimedPatterns.Tool.Error

/-!
# Files

A tree of directories and files under a root, with one directory in it from which relative paths
start. A place in the tree is the list of the names that lead to it from the root.

The operations on paths fail as those of a system do, with the error they would meet. Nothing but
the operation asked for is done, and nothing at all where it fails; only of directories made on the
way to another one those that could be made stay.
-/

namespace TimedPatterns

/-- What a file holds: text, or bytes that are none. -/
inductive Content where
  | text (s : String)
  | bytes (bs : List UInt8)
  deriving DecidableEq, Repr

namespace Content

/-- What bytes hold: the text that they encode, if there is one. -/
def ofBytes (bs : ByteArray) : Content :=
  match String.fromUTF8? bs with
  | some s => .text s
  | none => .bytes bs.toList

def toBytes : Content → ByteArray
  | .text s => s.toUTF8
  | .bytes bs => ⟨bs.toArray⟩

/-- The text, with U+FFFD in place of what is no character. -/
def lossy : Content → String
  | .text s => s
  | .bytes bs => Text.decodeLossy bs

/-- The text, if there is nothing else. -/
def text? : Content → Except SystemError String
  | .text s => .ok s
  | .bytes _ => .error .notText

end Content

/-- The names that lead from the root to a directory or a file. -/
abbrev Place := List String

/-- What is at a place. -/
inductive Node where
  | directory
  | file (content : Content)
  deriving DecidableEq, Repr

/-- Directories and files, and the directory from which relative paths start. The root is a
directory without being listed. -/
structure Files where
  nodes : List (Place × Node)
  here : Place
  deriving DecidableEq, Repr

namespace Files

/-! ### Places -/

/-- What is at a place, if anything. -/
def at? (f : Files) (place : Place) : Option Node :=
  if place = [] then some .directory else f.nodes.lookup place

/-- Put something at a place, where it replaces what was there. -/
def put (f : Files) (place : Place) (node : Node) : Files :=
  { f with nodes := (place, node) :: f.nodes.filter (·.1 ≠ place) }

def removeTree (f : Files) (place : Place) : Files :=
  { f with nodes := f.nodes.filter fun (p, _) => !place.isPrefixOf p }

/-- Whether nothing is directly below a place or deeper. -/
def isBare (f : Files) (place : Place) : Bool :=
  f.nodes.all fun (p, _) => p = place || !place.isPrefixOf p

/-- Move a place and all places below it. -/
def moveTree (f : Files) (source target : Place) : Files :=
  let moved := (f.nodes.filter fun (p, _) => source.isPrefixOf p).map fun (p, node) =>
    (target ++ p.drop source.length, node)
  { f with nodes := moved ++ ((f.removeTree source).removeTree target).nodes }

/-! ### Paths -/

/-- The most bytes that a name has. -/
def nameLimit : Nat := 255

/-- The most bytes that a path has. -/
def pathLimit : Nat := 4095

def below (place : Place) (name : String) : Except SystemError Place :=
  if nameLimit < name.utf8ByteSize then .error .nameTooLong else .ok (place ++ [name])

/-- Go from a directory to the directory that a part of a path leads to. -/
def enter (f : Files) (place : Place) (part : String) : Except SystemError Place :=
  if part = "" ∨ part = "." then .ok place
  else if part = ".." then .ok place.dropLast
  else do
    let place ← below place part
    match f.at? place with
    | some .directory => return place
    | some (.file _) => .error .notDirectory
    | none => .error .notFound

/-- Whether a path can be given to the system at all. -/
def checkPath (path : String) : Except SystemError Unit :=
  if path.toList.contains '\x00' then .error .nulInPath
  else if path = "" then .error .notFound
  else if pathLimit < path.utf8ByteSize then .error .nameTooLong
  else .ok ()

/-- What a path leads to: its place, and whether only a directory may be there. -/
structure Target where
  place : Place
  directoryOnly : Bool
  deriving DecidableEq, Repr

/-- Follow a path. All of it but its last part has to lead through directories. A path that ends
in a slash or in points leads to a directory only. -/
def resolve (f : Files) (path : String) : Except SystemError Target := do
  checkPath path
  let parts := Text.splitAt '/' path
  let start := if path.toList.head? = some '/' then [] else f.here
  let isName (part : String) : Bool := part ≠ "" && part ≠ "." && part ≠ ".."
  match parts.reverse with
  | [] => .error .notFound
  | last :: before =>
    if isName last then
      return ⟨← below (← before.reverse.foldlM f.enter start) last, false⟩
    -- slashes behind a name ask for a directory, but the name need not be there yet
    else match before.dropWhile (· = ""), last with
      | name :: before, "" =>
        if isName name then return ⟨← below (← before.reverse.foldlM f.enter start) name, true⟩
        else return ⟨← parts.foldlM f.enter start, true⟩
      | _, _ => return ⟨← parts.foldlM f.enter start, true⟩

/-! ### Operations -/

/-- What is at the end of a path, if anything. -/
def find? (f : Files) (path : String) : Option Node :=
  match f.resolve path with
  | .error _ => none
  | .ok target =>
    match f.at? target.place with
    | some (.file content) => if target.directoryOnly then none else some (.file content)
    | node? => node?

def contains (f : Files) (path : String) : Bool := (f.find? path).isSome

def isDirectory (f : Files) (path : String) : Bool := f.find? path == some .directory

/-- What the file holds that a path leads to. -/
def read (f : Files) (path : String) : Except SystemError Content := do
  let target ← f.resolve path
  match f.at? target.place with
  | none => .error .notFound
  | some .directory => .error .isDirectory
  | some (.file content) => if target.directoryOnly then .error .notDirectory else .ok content

def readText (f : Files) (path : String) : Except SystemError String := do
  (← f.read path).text?

/-- Write a file, anew or in place of what it held. -/
def write (f : Files) (path : String) (content : Content) : Except SystemError Files := do
  let target ← f.resolve path
  if target.directoryOnly then .error .isDirectory
  match f.at? target.place with
  | some .directory => .error .isDirectory
  | _ => return f.put target.place (.file content)

def makeDirectory (f : Files) (path : String) : Except SystemError Files := do
  let target ← f.resolve path
  match f.at? target.place with
  | some _ => .error .nameTaken
  | none => return f.put target.place .directory

/-- Make a directory, or find it there. -/
def ensureDirectory (f : Files) (path : String) : Except SystemError Files :=
  match f.makeDirectory path with
  | .ok f => .ok f
  | .error error => if f.isDirectory path then .ok f else .error error

/-- Make a directory and those on the way to it. `depth` bounds the number of parents that are
tried. -/
def makeDirectoriesFrom (depth : Nat) (f : Files) (path : String) :
    Except SystemError Unit × Files :=
  if path = "" then (.ok (), f)
  else match f.ensureDirectory path, depth, Path.parent? path with
    | .ok f, _, _ => (.ok (), f)
    | .error error, depth + 1, some parent =>
      if error ≠ .notFound then (.error error, f)
      else match f.makeDirectoriesFrom depth parent with
        | (.error error, f) => (.error error, f)
        | (.ok (), f) =>
          match f.ensureDirectory path with
          | .ok f => (.ok (), f)
          | .error error => (.error error, f)
    | .error error, _, _ => (.error error, f)
termination_by depth

/-- Make a directory and those on the way to it, as far as they are not there. -/
def makeDirectories (f : Files) (path : String) : Except SystemError Unit × Files :=
  f.makeDirectoriesFrom path.length path

/-- Move a file or a directory, in place of a file or of an empty directory. -/
def rename (f : Files) (source target : String) : Except SystemError Files := do
  checkPath source
  checkPath target
  let source ← f.resolve source
  let target ← f.resolve target
  match f.at? source.place, f.at? target.place with
  | none, _ => .error .notFound
  | some (.file _), there =>
    if source.directoryOnly ∨ target.directoryOnly then .error .notDirectory
    else if there = some .directory then .error .isDirectory
    else if source.place = target.place then .ok f
    else return f.moveTree source.place target.place
  | some .directory, there =>
    if source.place = target.place then .ok f
    -- a directory cannot be moved into itself
    else if source.place.isPrefixOf target.place then .error .invalid
    else match there with
      | some (.file _) => .error .notDirectory
      | some .directory =>
        if f.isBare target.place then .ok (f.moveTree source.place target.place)
        else .error .notEmpty
      | none => .ok (f.moveTree source.place target.place)

end Files

end TimedPatterns
