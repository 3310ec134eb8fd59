import TimedPatterns.Text.Entity

/-!
# Elements

The tree of a markup document as far as a witness needs it: elements with their attributes and
child elements. Text and comments are not kept.
-/

namespace TimedPatterns

/-- An element with its attributes, in order, and its child elements. -/
structure Element where
  name : String
  attributes : List (String × String)
  children : List Element
  deriving Inhabited, Repr

namespace Element

/-- The value of the first attribute with the given name. -/
def attribute? (e : Element) (name : String) : Option String :=
  (e.attributes.find? (·.1 = name)).map (·.2)

def childrenNamed (e : Element) (name : String) : List Element :=
  e.children.filter (·.name = name)

end Element

end TimedPatterns
