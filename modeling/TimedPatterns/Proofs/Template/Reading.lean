import Mathlib.Tactic
import TimedPatterns.Template.Basic

/-!
# Templates that listen

A template that is added to a model listens to the labels that the model sends. It takes an edge
that receives the label from the location it is in, and stays where it is if there is none, since
those who listen never block a broadcast.

Several edges may receive a label at one location, so listening is a relation between locations,
and so is the reading of a word, which is listening to one label after the other. Where listening
is a function of what has been heard so far, so is reading.
-/

namespace TimedPatterns.Template

variable {t : Template} {p q r : Nat} {a : String} {w : List String}

/-! ### Listening -/

/-- The edges that receive a label at a location. -/
def receiving (t : Template) (position : Nat) (label : String) : List TemplateEdge :=
  t.edges.filter fun e => e.source = position ∧ e.sync = label ++ "?"

@[simp] lemma mem_receiving {e : TemplateEdge} :
    e ∈ t.receiving p a ↔ e ∈ t.edges ∧ e.source = p ∧ e.sync = a ++ "?" := by
  simp [receiving]

/-- A label takes a template from a location to another one, or leaves it there. -/
inductive Hears (t : Template) (position : Nat) (label : String) : Nat → Prop
  | take {e : TemplateEdge} (he : e ∈ t.receiving position label) :
      Hears t position label e.target
  | stay (h : t.receiving position label = []) : Hears t position label position

/-- Where all the edges that receive a label lead to one location, it is heard in one way. -/
lemma hears_iff_of_target {target : Nat} (hmem : ∃ e, e ∈ t.receiving p a)
    (htarget : ∀ e ∈ t.receiving p a, e.target = target) : t.Hears p a q ↔ q = target := by
  constructor
  · intro h
    cases h with
    | take he => exact htarget _ he
    | stay hnil =>
      obtain ⟨e, he⟩ := hmem
      rw [hnil] at he
      cases he
  · rintro rfl
    obtain ⟨e, he⟩ := hmem
    rw [← htarget e he]
    exact .take he

/-- Where no edge receives a label, it is heard without moving. -/
lemma hears_iff_of_deaf (hdeaf : ∀ e, e ∉ t.receiving p a) : t.Hears p a q ↔ q = p := by
  constructor
  · intro h
    cases h with
    | take he => exact absurd he (hdeaf _)
    | stay _ => rfl
  · rintro rfl
    exact .stay (List.eq_nil_iff_forall_not_mem.2 hdeaf)

/-! ### Reading -/

/-- A word takes a template from a location to another one, label by label. -/
inductive Reads (t : Template) : Nat → List String → Nat → Prop
  | nil (p : Nat) : Reads t p [] p
  | cons {p q r : Nat} {a : String} {w : List String} (h : t.Hears p a q)
      (hs : Reads t q w r) : Reads t p (a :: w) r

@[simp] lemma reads_nil_iff : t.Reads p [] r ↔ r = p := by
  constructor
  · intro h
    cases h
    rfl
  · rintro rfl
    exact .nil r

@[simp] lemma reads_cons_iff : t.Reads p (a :: w) r ↔ ∃ q, t.Hears p a q ∧ t.Reads q w r := by
  constructor
  · intro h
    cases h with
    | cons h hs => exact ⟨_, h, hs⟩
  · rintro ⟨q, h, hs⟩
    exact .cons h hs

/-- If the location is a function of what has been heard, it is so throughout a word. -/
lemma reads_iff_foldl {Heard : Type} {place : Heard → Nat} {next : Heard → String → Heard}
    (h : ∀ u a q, t.Hears (place u) a q ↔ q = place (next u a)) (u : Heard) :
    t.Reads (place u) w r ↔ r = place (w.foldl next u) := by
  induction w generalizing u with
  | nil => simp
  | cons a w ih => simp only [reads_cons_iff, h, exists_eq_left, ih, List.foldl_cons]

/-- The name of the location at a position. -/
def nameAt? (t : Template) (position : Nat) : Option String :=
  (t.locations[position]?).map (·.name)

/-- A template passes on a word if reading it may end in the location `pass`. -/
def Passes (t : Template) (w : List String) : Prop :=
  ∃ p, t.Reads 0 w p ∧ t.nameAt? p = some "pass"

end TimedPatterns.Template
