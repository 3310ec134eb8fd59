import TimedPatterns.Proofs.Template.Guard
import TimedPatterns.Proofs.Template.Reading

/-!
# Templates that keep time

An event is a label together with the value of the clock at which it is sent. A template takes an
edge that receives the label and whose guard holds at that value, and stays where it is if there is
none.

Where all the edges that may be taken for an event lead to one location, a template reads a word of
events in one way.
-/

namespace TimedPatterns

structure Event (Time : Type*) where
  label : String
  time : Time

namespace Template

variable {Time : Type*} [LE Time] [IntCast Time] {t : Template} {clock : String} {p q r : Nat}
  {e : Event Time} {events : List (Event Time)}

/-! ### One event -/

/-- An edge may be taken for an event: it receives the label, and its guard holds. -/
def Enables (t : Template) (clock : String) (position : Nat) (e : Event Time)
    (edge : TemplateEdge) : Prop :=
  edge ∈ t.receiving position e.label ∧ GuardHolds clock e.time edge.guard

/-- An event takes a template from a location to another one, or leaves it there. -/
inductive Follows (t : Template) (clock : String) (position : Nat) (e : Event Time) : Nat → Prop
  | take {edge : TemplateEdge} (h : t.Enables clock position e edge) :
      Follows t clock position e edge.target
  | stay (h : ∀ edge, ¬ t.Enables clock position e edge) : Follows t clock position e position

/-- Where all the edges that may be taken lead to one location, an event is followed in one way. -/
lemma follows_iff_of_target {target : Nat} (hmem : ∃ edge, t.Enables clock p e edge)
    (htarget : ∀ edge, t.Enables clock p e edge → edge.target = target) :
    t.Follows clock p e q ↔ q = target := by
  obtain ⟨edge, hedge⟩ := hmem
  constructor
  · intro h
    cases h with
    | take hother => exact htarget _ hother
    | stay hnone => exact absurd hedge (hnone edge)
  · rintro rfl
    rw [← htarget edge hedge]
    exact .take hedge

/-- Where no edge may be taken, an event is followed without moving. -/
lemma follows_iff_of_idle (hnone : ∀ edge, ¬ t.Enables clock p e edge) :
    t.Follows clock p e q ↔ q = p := by
  constructor
  · intro h
    cases h with
    | take hedge => exact absurd hedge (hnone _)
    | stay _ => rfl
  · rintro rfl
    exact .stay hnone

/-- The edges that may be taken for an event lead to one location. -/
def Decided (t : Template) (clock : String) (Time : Type*) [LE Time] [IntCast Time] : Prop :=
  ∀ (position : Nat) (e : Event Time) (edge edge' : TemplateEdge),
    t.Enables clock position e edge → t.Enables clock position e edge' →
      edge.target = edge'.target

lemma Decided.existsUnique_follows (h : t.Decided clock Time) (p : Nat) (e : Event Time) :
    ∃! q, t.Follows clock p e q := by
  by_cases hmem : ∃ edge, t.Enables clock p e edge
  · obtain ⟨edge, hedge⟩ := hmem
    have hfollows {q : Nat} := follows_iff_of_target (q := q) ⟨edge, hedge⟩
      fun edge' hedge' => h p e edge' edge hedge' hedge
    exact ⟨edge.target, hfollows.2 rfl, fun q => hfollows.1⟩
  · have hfollows {q : Nat} := follows_iff_of_idle (q := q) (not_exists.1 hmem)
    exact ⟨p, hfollows.2 rfl, fun q => hfollows.1⟩

/-! ### Words of events -/

/-- A word of events takes a template from a location to another one, event by event. -/
inductive Runs (t : Template) (clock : String) : Nat → List (Event Time) → Nat → Prop
  | nil (p : Nat) : Runs t clock p [] p
  | cons {p q r : Nat} {e : Event Time} {events : List (Event Time)} (h : t.Follows clock p e q)
      (hs : Runs t clock q events r) : Runs t clock p (e :: events) r

@[simp] lemma runs_nil_iff : t.Runs clock p ([] : List (Event Time)) r ↔ r = p := by
  constructor
  · intro h
    cases h
    rfl
  · rintro rfl
    exact .nil r

@[simp] lemma runs_cons_iff :
    t.Runs clock p (e :: events) r ↔ ∃ q, t.Follows clock p e q ∧ t.Runs clock q events r := by
  constructor
  · intro h
    cases h with
    | cons h hs => exact ⟨_, h, hs⟩
  · rintro ⟨q, h, hs⟩
    exact .cons h hs

/-- A word of events is read in one way. -/
lemma Decided.existsUnique_runs (h : t.Decided clock Time) (p : Nat)
    (events : List (Event Time)) : ∃! q, t.Runs clock p events q := by
  induction events generalizing p with
  | nil => exact ⟨p, .nil p, fun q => runs_nil_iff.1⟩
  | cons e events ih =>
    obtain ⟨q, hq, hqunique⟩ := h.existsUnique_follows p e
    obtain ⟨r, hr, hrunique⟩ := ih q
    refine ⟨r, .cons hq hr, fun r' hr' => ?_⟩
    obtain ⟨q', hq', hr'⟩ := runs_cons_iff.1 hr'
    obtain rfl := hqunique q' hq'
    exact hrunique r' hr'

/-- A template recognises a word of events if reading it may end in the location `pass`. -/
def Recognises (t : Template) (clock : String) (events : List (Event Time)) : Prop :=
  ∃ p, t.Runs clock 0 events p ∧ t.nameAt? p = some "pass"

end Template

end TimedPatterns
