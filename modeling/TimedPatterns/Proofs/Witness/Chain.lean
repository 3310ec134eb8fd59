import TimedPatterns.Proofs.Text.Blank
import TimedPatterns.Witness.Listing

/-!
# Chains

A chain is a run as a model checker makes it: a first state, and steps, each of which takes some
edges together to another state. It is the witness in which every move leads to the next state.

The names and the numbers of a chain can be written if they are as the model checker has them. A
clock is named by word characters, points, brackets and parentheses, a process by word characters,
brackets and parentheses, a location by word characters and brackets, and a synchronisation is a
channel with `!` or `?`. Bounds are signed numbers of 64 bits.
-/

namespace TimedPatterns

/-- A first state, and steps, each with the edges that are taken and the state they lead to. -/
structure Chain where
  first : List Difference
  steps : List (List WitnessEdge × List Difference)

namespace Chain

/-- The constraints of the states, in order. -/
def zones (c : Chain) : List (List Difference) := c.first :: c.steps.map (·.2)

/-- The witness whose moves lead from each state to the next one. -/
def witness (c : Chain) : Witness where
  states := c.zones.map (⟨·⟩)
  moves := c.steps.zipIdx.map fun (step, i) => ⟨step.1, i + 1⟩

end Chain

/-! ### Names -/

/-- The clock that stands at zero, or a text of clock characters that begins with a letter or an
underscore and does not look like that clock with a qualification. -/
def IsClockName (name : String) : Prop :=
  name = zeroClock ∨ (name.toList.head?.any Text.isWord = true ∧
    name.toList.all Listing.isClockChar = true ∧ ¬ '.' :: zeroClock.toList <:+ name.toList)

/-- A text of process characters that begins with a letter or an underscore, and not with
`Delay`. -/
def IsProcessName (name : String) : Prop :=
  name.toList.head?.any Text.isWord = true ∧
    name.toList.all Listing.isProcessChar = true ∧ ¬ "Delay".toList <+: name.toList

/-- A text of location characters. -/
def IsLocationName (name : String) : Prop :=
  name ≠ "" ∧ name.toList.all Listing.isLocationChar = true

/-- A channel with `!` or `?` behind it. -/
def IsSynchronisation (sync : String) : Prop :=
  ∃ c cs last, sync.toList = c :: (cs ++ [last]) ∧ (c.isAlpha = true ∨ c = '_') ∧
    cs.all Listing.isLocationChar = true ∧ (last = '!' ∨ last = '?')

instance (name : String) : Decidable (IsClockName name) :=
  inferInstanceAs (Decidable (_ ∨ _))

instance (name : String) : Decidable (IsProcessName name) :=
  inferInstanceAs (Decidable (_ ∧ _))

instance (name : String) : Decidable (IsLocationName name) :=
  inferInstanceAs (Decidable (_ ∧ _))

/-- A constraint that can be written. -/
structure Difference.Written (d : Difference) : Prop where
  left : IsClockName d.left
  right : IsClockName d.right
  min_le : Text.minSigned ≤ d.bound
  le_max : d.bound ≤ Text.maxSigned

/-- An edge that can be written. -/
structure WitnessEdge.Written (e : WitnessEdge) : Prop where
  process : IsProcessName e.process
  source : IsLocationName e.source
  target : IsLocationName e.target
  sync : ∀ sync ∈ e.sync, IsSynchronisation sync

/-- A chain that can be written. -/
structure Chain.Written (c : Chain) : Prop where
  zones : ∀ zone ∈ c.zones, ∀ d ∈ zone, d.Written
  edges : ∀ step ∈ c.steps, ∀ e ∈ step.1, e.Written

/-! ### Their characters -/

namespace Listing

variable {c : Char}

open Text

/-- A clock character is a word character or one of the five signs. -/
lemma isClockChar_iff : isClockChar c = true ↔
    isWord c = true ∨ c = '.' ∨ c = '[' ∨ c = ']' ∨ c = '(' ∨ c = ')' := by
  simp [isClockChar, or_assoc]

lemma isClockChar_of_isProcessChar (h : isProcessChar c = true) : isClockChar c = true := by
  simp only [isProcessChar, Bool.or_eq_true, beq_iff_eq] at h
  rw [isClockChar_iff]
  tauto

lemma isClockChar_of_isLocationChar (h : isLocationChar c = true) : isClockChar c = true := by
  simp only [isLocationChar, Bool.or_eq_true, beq_iff_eq] at h
  rw [isClockChar_iff]
  tauto

/-- No character of a name is blank. -/
lemma isBlank_of_isClockChar (h : isClockChar c = true) : isBlank c = false := by
  rcases isClockChar_iff.1 h with h | rfl | rfl | rfl | rfl | rfl
  · exact isBlank_of_isWord h
  all_goals rfl

/-- No character of a name is one of the other signs of a listing. -/
lemma ne_of_isClockChar {x : Char} (h : isClockChar c = true)
    (hx : isClockChar x = false) : c ≠ x := by
  rintro rfl
  rw [h] at hx
  cases hx

end Listing

namespace IsClockName

variable {name : String}

lemma isClockChar (h : IsClockName name) : ∀ x ∈ name.toList, Listing.isClockChar x = true := by
  rw [← List.all_eq_true]
  rcases h with rfl | ⟨-, h, -⟩
  · decide
  · exact h

lemma toList_ne_nil (h : IsClockName name) : name.toList ≠ [] := by
  rcases h with rfl | ⟨h, -, -⟩
  · decide
  · intro hnil
    rw [hnil] at h
    cases h

lemma head?_ne (h : IsClockName name) : name.toList.head? ≠ some '(' := by
  rcases h with rfl | ⟨h, -, -⟩
  · decide
  · intro hhead
    rw [hhead] at h
    exact absurd h (by decide)

end IsClockName

lemma IsProcessName.isProcessChar {name : String} (h : IsProcessName name) :
    ∀ x ∈ name.toList, Listing.isProcessChar x = true :=
  List.all_eq_true.1 h.2.1

lemma IsLocationName.isLocationChar {name : String} (h : IsLocationName name) :
    ∀ x ∈ name.toList, Listing.isLocationChar x = true :=
  List.all_eq_true.1 h.2

lemma IsProcessName.toList_ne_nil {name : String} (h : IsProcessName name) : name.toList ≠ [] := by
  intro hnil
  have hhead := h.1
  rw [hnil] at hhead
  cases hhead

lemma IsLocationName.toList_ne_nil {name : String} (h : IsLocationName name) : name.toList ≠ [] :=
  fun hnil => h.1 (String.toList_eq_nil_iff.1 hnil)

namespace IsSynchronisation

variable {sync : String}

/-- The texts that have the form of a synchronisation when a listing is read. -/
lemma iff_isSync : IsSynchronisation sync ↔ Listing.isSync sync.toList = true := by
  constructor
  · rintro ⟨c, cs, last, heq, hc, hcs, hlast⟩
    have hreverse : (cs ++ [last]).reverse = last :: cs.reverse := by simp
    rw [heq, Listing.isSync, hreverse]
    simp only [Bool.and_eq_true, Bool.or_eq_true, beq_iff_eq, List.all_reverse]
    exact ⟨hc, hlast, hcs⟩
  · intro h
    cases heq : sync.toList with
    | nil =>
      rw [heq] at h
      cases h
    | cons c rest =>
      rw [heq, Listing.isSync] at h
      cases hreverse : rest.reverse with
      | nil =>
        rw [hreverse, Bool.and_false] at h
        cases h
      | cons last name =>
        rw [hreverse] at h
        simp only [Bool.and_eq_true, Bool.or_eq_true, beq_iff_eq] at h
        obtain ⟨hc, hlast, hname⟩ := h
        refine ⟨c, name.reverse, last, ?_, hc, List.all_reverse.trans hname, hlast⟩
        rw [heq, ← List.reverse_cons, ← hreverse, List.reverse_reverse]

lemma mem_cases (h : IsSynchronisation sync) :
    ∀ x ∈ sync.toList, Listing.isClockChar x = true ∨ x = '!' ∨ x = '?' := by
  obtain ⟨c, cs, last, heq, hc, hcs, hlast⟩ := h
  have hword : Text.isWord c = true := by
    rcases hc with hc | rfl
    · exact Text.isWord_of_isAlphanum (by simp [Char.isAlphanum, hc])
    · decide
  rw [heq, List.forall_mem_cons, List.forall_mem_append, List.forall_mem_singleton]
  exact ⟨.inl (Listing.isClockChar_iff.2 (.inl hword)),
    fun x hx => .inl (Listing.isClockChar_of_isLocationChar (List.all_eq_true.1 hcs x hx)),
    .inr hlast⟩

lemma isBlank (h : IsSynchronisation sync) : ∀ x ∈ sync.toList, Text.isBlank x = false := by
  intro x hx
  rcases h.mem_cases x hx with hx | rfl | rfl
  · exact Listing.isBlank_of_isClockChar hx
  · rfl
  · rfl

lemma ne_comma (h : IsSynchronisation sync) : ∀ x ∈ sync.toList, x ≠ ',' := by
  intro x hx
  rcases h.mem_cases x hx with hx | rfl | rfl
  · exact Listing.ne_of_isClockChar hx (by decide)
  · decide
  · decide

end IsSynchronisation

/-! ### What can be written is decidable -/

instance (sync : String) : Decidable (IsSynchronisation sync) :=
  decidable_of_iff _ IsSynchronisation.iff_isSync.symm

instance (d : Difference) : Decidable d.Written :=
  decidable_of_iff (IsClockName d.left ∧ IsClockName d.right ∧ Text.minSigned ≤ d.bound ∧
      d.bound ≤ Text.maxSigned)
    ⟨fun ⟨left, right, hmin, hmax⟩ => ⟨left, right, hmin, hmax⟩,
      fun h => ⟨h.left, h.right, h.min_le, h.le_max⟩⟩

instance (e : WitnessEdge) : Decidable e.Written :=
  decidable_of_iff (IsProcessName e.process ∧ IsLocationName e.source ∧
      IsLocationName e.target ∧ ∀ sync ∈ e.sync, IsSynchronisation sync)
    ⟨fun ⟨process, source, target, sync⟩ => ⟨process, source, target, sync⟩,
      fun h => ⟨h.process, h.source, h.target, h.sync⟩⟩

instance (c : Chain) : Decidable c.Written :=
  decidable_of_iff ((∀ zone ∈ c.zones, ∀ d ∈ zone, d.Written) ∧
      ∀ step ∈ c.steps, ∀ e ∈ step.1, e.Written)
    ⟨fun ⟨zones, edges⟩ => ⟨zones, edges⟩, fun h => ⟨h.zones, h.edges⟩⟩

end TimedPatterns
