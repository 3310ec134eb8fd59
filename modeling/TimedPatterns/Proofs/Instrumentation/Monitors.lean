import Mathlib.Tactic
import TimedPatterns.Instrumentation
import TimedPatterns.Proofs.Template.Monitor
import TimedPatterns.Proofs.Text.Numeral

/-!
# The monitors of an instrumentation

An instrumentation adds one monitor for each pattern that it rules out. The monitor of a pattern
is found by its name, which no other template has. A word is admitted if no monitor passes on it.

If the alphabet has the labels of all excluded patterns, the words that are admitted are those of
which something else than an excluded pattern counts.
-/

namespace TimedPatterns

/-! ### Names -/

namespace Template

lemma monitorName_injective : Function.Injective monitorName := by
  intro j k h
  have hdigits : toString j = toString k := (String.append_right_inj "PatternMonitor").1 h
  exact Text.toString_nat_injective hdigits

lemma inputName_ne_monitorName (k : Nat) : inputName ≠ monitorName k :=
  (append_ne_of_not_initial (by decide) (toString k)).symm

lemma observerName_ne_monitorName (k : Nat) : observerName ≠ monitorName k :=
  (append_ne_of_not_initial (by decide) (toString k)).symm

end Template

namespace Instrumentation

variable {p : Instrumentation} {k : Nat} {pattern w : List String} {t : Template}

lemma mem_templates :
    t ∈ p.templates ↔ (∃ word ∈ p.input, t = .input word p.clock) ∨
      (∃ word ∈ p.observed, t = .observer word p.observedAlphabet p.clock) ∨
      ∃ k pattern, p.excluded[k]? = some pattern ∧
        t = .monitor k pattern p.exclusionAlphabet := by
  simp only [templates, List.mem_append, Option.mem_toList, Option.map_eq_some_iff,
    List.mem_mapIdx, Option.mem_def, or_assoc]
  refine or_congr (by simp only [eq_comm]) (or_congr (by simp only [eq_comm]) ?_)
  constructor
  · rintro ⟨k, hk, rfl⟩
    exact ⟨k, p.excluded[k], by simp, rfl⟩
  · rintro ⟨k, pattern, hk, rfl⟩
    obtain ⟨hlt, rfl⟩ := List.getElem?_eq_some_iff.1 hk
    exact ⟨k, hlt, rfl⟩

/-- The template with the name of a monitor is the monitor of the pattern at its position. -/
lemma mem_templates_and_name_iff :
    t ∈ p.templates ∧ t.name = Template.monitorName k ↔
      ∃ pattern, p.excluded[k]? = some pattern ∧ t = .monitor k pattern p.exclusionAlphabet := by
  rw [mem_templates]
  constructor
  · rintro ⟨⟨word, -, rfl⟩ | ⟨word, -, rfl⟩ | ⟨j, pattern, hj, rfl⟩, hname⟩
    · exact absurd hname (Template.inputName_ne_monitorName k)
    · exact absurd hname (Template.observerName_ne_monitorName k)
    · obtain rfl : j = k := Template.monitorName_injective hname
      exact ⟨pattern, hj, rfl⟩
  · rintro ⟨pattern, hk, rfl⟩
    exact ⟨.inr (.inr ⟨k, pattern, hk, rfl⟩), rfl⟩

/-- A template is found by its name if no other one has it. -/
lemma find?_name_eq_some (ht : t ∈ p.templates)
    (hunique : ∀ other ∈ p.templates, other.name = t.name → other = t) :
    p.templates.find? (·.name = t.name) = some t := by
  have hfound : (p.templates.find? (·.name = t.name)).isSome := by
    simp only [List.find?_isSome, decide_eq_true_eq]
    exact ⟨t, ht, rfl⟩
  obtain ⟨other, hother⟩ := Option.isSome_iff_exists.1 hfound
  have hname : other.name = t.name := by simpa using List.find?_some hother
  rw [hother, hunique other (List.mem_of_find?_eq_some hother) hname]

/-! ### Monitors by number -/

def monitor? (p : Instrumentation) (k : Nat) : Option Template :=
  p.templates.find? (·.name = Template.monitorName k)

lemma monitor?_eq_some (h : p.excluded[k]? = some pattern) :
    p.monitor? k = some (.monitor k pattern p.exclusionAlphabet) := by
  refine find?_name_eq_some (mem_templates.2 (.inr (.inr ⟨k, pattern, h, rfl⟩))) fun t ht hname => ?_
  obtain ⟨other, hother, rfl⟩ := mem_templates_and_name_iff.1 ⟨ht, hname⟩
  obtain rfl : other = pattern := Option.some.inj (hother.symm.trans h)
  rfl

/-! ### Admitted words -/

/-- No monitor passes on the word. -/
def Admits (p : Instrumentation) (w : List String) : Prop :=
  ∀ t ∈ p.templates, t.name ∈ p.monitors → ¬ t.Passes w

/-- The alphabet of the monitors has the labels of all the patterns that are excluded. -/
def Covers (p : Instrumentation) : Prop :=
  ∀ pattern ∈ p.excluded, ∀ a ∈ pattern, a ∈ p.exclusionAlphabet

/-- Each monitor reads every word to one of its locations, which is called `pass` if and only if
what counts of the word is the pattern of the monitor. -/
def Exact (p : Instrumentation) : Prop :=
  ∀ k pattern, p.excluded[k]? = some pattern → ∃ t, p.monitor? k = some t ∧
    ∀ w, ∃ position < t.locations.length, (∀ q, t.Reads 0 w q ↔ q = position) ∧
      (t.nameAt? position = some "pass" ↔ w.filter (· ∈ p.exclusionAlphabet) = pattern)

lemma exact_of_covers (h : p.Covers) : p.Exact := by
  intro k pattern hk
  have hsub := h pattern (List.mem_of_getElem? hk)
  refine ⟨_, monitor?_eq_some hk, fun w => ?_⟩
  refine ⟨_, Template.monitorPosition_lt, fun q => Template.reads_monitor_iff hsub, ?_⟩
  rw [Template.nameAt?_monitor_eq_pass_iff, Template.monitorPosition_eq_length_iff]

lemma admits_iff (h : p.Covers) :
    p.Admits w ↔ w.filter (· ∈ p.exclusionAlphabet) ∉ p.excluded := by
  constructor
  · intro hadmits hmem
    obtain ⟨k, hk⟩ := List.mem_iff_getElem?.1 hmem
    have hlt : k < p.excluded.length := (List.getElem?_eq_some_iff.1 hk).1
    have hname : Template.monitorName k ∈ p.monitors :=
      List.mem_map.2 ⟨k, List.mem_range.2 hlt, rfl⟩
    have hpasses := (Template.passes_monitor_iff (k := k) (h _ hmem)).2 rfl
    exact hadmits _ (mem_templates.2 (.inr (.inr ⟨k, _, hk, rfl⟩))) hname hpasses
  · intro hnot t ht hname hpasses
    obtain ⟨k, -, hk⟩ := List.mem_map.1 hname
    obtain ⟨pattern, hpattern, rfl⟩ := mem_templates_and_name_iff.1 ⟨ht, hk.symm⟩
    have hmem := List.mem_of_getElem? hpattern
    rw [Template.passes_monitor_iff (h _ hmem)] at hpasses
    exact hnot (hpasses ▸ hmem)

end Instrumentation

end TimedPatterns
