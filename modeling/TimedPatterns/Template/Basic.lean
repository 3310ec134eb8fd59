import TimedPatterns.Text.Entity

/-!
# Templates

A template is a timed automaton that is added to a model: locations with invariants, and edges
with guards that send or receive on a channel. The first location is the one it starts in.

A template is written as the markup of a model. The identifier of a location is made of the name
of the template and the position of the location.
-/

namespace TimedPatterns

/-- A location with an invariant, if it has one. -/
structure Location where
  name : String
  invariant : Option String
  deriving DecidableEq, Repr

/-- An edge between two locations, given by their positions. -/
structure TemplateEdge where
  source : Nat
  target : Nat
  guard : Option String
  sync : String
  deriving DecidableEq, Repr

/-- A timed automaton with a comment on what it is for. -/
structure Template where
  name : String
  comment : Option String
  locations : List Location
  edges : List TemplateEdge
  deriving DecidableEq, Repr

namespace Template

open Text

def locationId (t : Template) (position : Nat) : String := s!"pf_{t.name}_{position}"

/-- A label between its tags, if there is one. -/
def renderLabel (kind : String) : Option String → String
  | none => ""
  | some label => s!"<label kind=\"{kind}\">{escape label}</label>"

def renderLocation (t : Template) (position : Nat) (l : Location) : String :=
  s!"  <location id=\"{t.locationId position}\"><name>{l.name}</name>"
    ++ renderLabel "invariant" l.invariant ++ "</location>\n"

def renderEdge (t : Template) (e : TemplateEdge) : String :=
  s!"  <transition><source ref=\"{t.locationId e.source}\"/>"
    ++ s!"<target ref=\"{t.locationId e.target}\"/>"
    ++ renderLabel "guard" e.guard ++ renderLabel "synchronisation" (some e.sync)
    ++ "</transition>\n"

def renderComment (t : Template) : String :=
  match t.comment with
  | none => ""
  | some comment => s!"  <declaration>// {escape comment}</declaration>\n"

def render (t : Template) : String :=
  "<template>\n" ++ s!"  <name>{t.name}</name>\n" ++ t.renderComment
    ++ String.join (t.locations.mapIdx t.renderLocation)
    ++ s!"  <init ref=\"{t.locationId 0}\"/>\n"
    ++ String.join (t.edges.map t.renderEdge)
    ++ "</template>"

end Template

end TimedPatterns
