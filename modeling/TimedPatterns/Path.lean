import TimedPatterns.Text.Blank

/-!
# Paths

A path is a text of parts with slashes between them. The first part of an absolute path is empty.
Among the parts behind the first one, those that are empty and those that are a single point do
not count: `a//b/.` ends in the component `b`.

The last component is the name of a file unless it is `.` or `..`. The extension of a name is
what stands behind its last point, if something stands before that point.
-/

namespace TimedPatterns.Path

/-! ### Components -/

/-- The first part of a path and the parts behind it. -/
def split (path : String) : List Char × List (List Char) :=
  match Text.pieces (· == '/') path.toList with
  | [] => ([], [])
  | head :: tail => (head, tail)

/-- Whether a part behind the first one counts. -/
def counts (part : List Char) : Bool := part != [] && part != ['.']

/-- Drop the parts at the end that do not count. -/
def trimParts (parts : List (List Char)) : List (List Char) :=
  (parts.reverse.dropWhile (!counts ·)).reverse

def ofParts (head : List Char) (tail : List (List Char)) : List Char :=
  head ++ tail.flatMap ('/' :: ·)

/-- The last component, unless the path is empty or the root. -/
def last? (path : String) : Option (List Char) :=
  let (head, tail) := split path
  match (trimParts tail).getLast? with
  | some part => some part
  | none => if head = [] then none else some head

/-- The name of the file that a path leads to. -/
def nameChars? (path : String) : Option (List Char) :=
  match last? path with
  | none => none
  | some part => if part = ['.'] ∨ part = ['.', '.'] then none else some part

def name? (path : String) : Option String := (nameChars? path).map String.ofList

/-- The path without its last component, unless the path is empty or the root. -/
def parent? (path : String) : Option String :=
  let (head, tail) := split path
  match (trimParts tail).reverse with
  | [] => if head = [] then none else some ""
  | _ :: before =>
    match head, trimParts before.reverse with
    | [], [] => some "/"
    | head, tail => some (String.ofList (ofParts head tail))

/-- The directory a path lies in, `.` standing for the one that needs no name. -/
def directory (path : String) : String :=
  match parent? path with
  | none | some "" => "."
  | some parent => parent

/-! ### Extensions -/

/-- What stands before and what stands behind the last point of a name. A point at the beginning
does not count. -/
def splitName (name : List Char) : List Char × Option (List Char) :=
  match name.reverse.span (· != '.') with
  | (_, []) => (name, none)
  | (_, [_]) => (name, none)
  | (after, _ :: before) => (before.reverse, some after.reverse)

def stem? (path : String) : Option String :=
  (nameChars? path).map fun name => String.ofList (splitName name).1

def extension? (path : String) : Option String :=
  ((nameChars? path).bind fun name => (splitName name).2).map String.ofList

/-- Cut a path behind the stem of its file, if it leads to one. -/
def cutStem (path : String) : String :=
  match nameChars? path with
  | none => path
  | some name =>
    let (head, tail) := split path
    let text := ofParts head (trimParts tail)
    let dropped := name.length - (splitName name).1.length
    String.ofList (text.take (text.length - dropped))

/-- The path without the extension of its file. As many characters as the extension has are taken
from the end of the path before it is cut behind the stem. -/
def withoutExtension (path : String) : String :=
  match extension? path with
  | none => cutStem path
  | some extension =>
    cutStem (String.ofList (path.toList.take (path.toList.length - extension.toList.length)))

/-! ### Joining -/

/-- The path of a name in a directory. An absolute path stays what it is. -/
def join (directory path : String) : String :=
  match path.toList.head?, directory.toList.getLast? with
  | some '/', _ => path
  | _, none => path
  | _, some '/' => directory ++ path
  | _, some _ => directory ++ "/" ++ path

/-- The path of another file in the directory of a file. -/
def withName (path name : String) : String :=
  match name? path with
  | none => join path name
  | some _ => join ((parent? path).getD "") name

end TimedPatterns.Path
