import TimedPatterns.Proofs.Template.Chain
import TimedPatterns.Proofs.Template.Reading

/-!
# Monitors are exact

A monitor follows a pattern over an alphabet. After a word, it is at the position that the word
has reached in the pattern, where the labels outside the alphabet do not count, or in `fail` if
the word has left the pattern. So it is in `pass` exactly when what counts of the word is the
pattern.

This takes that the labels of the pattern are in the alphabet. Otherwise a label that does not
count would move the monitor along the pattern.
-/

namespace TimedPatterns.Template

variable {k p q : Nat} {a : String} {pattern alphabet u w : List String}

/-! ### Edges -/

lemma mem_failEdges {fail position : Nat} {expected : Option String} {e : TemplateEdge} :
    e ∈ failEdges alphabet fail position expected ↔
      ∃ other ∈ alphabet, expected ≠ some other ∧ e = ⟨position, fail, none, other ++ "?"⟩ := by
  simp only [failEdges, List.mem_map, List.mem_filter, bne_iff_ne]
  constructor
  · rintro ⟨other, ⟨hmem, hne⟩, rfl⟩
    exact ⟨other, hmem, hne, rfl⟩
  · rintro ⟨other, hmem, hne, rfl⟩
    exact ⟨other, ⟨hmem, hne⟩, rfl⟩

/-- An edge of a monitor receives the label that the pattern expects and goes on, or another one
of the alphabet and fails. -/
lemma mem_edges_monitor {e : TemplateEdge} :
    e ∈ (monitor k pattern alphabet).edges ↔
      (∃ i label, pattern[i]? = some label ∧ e = ⟨i, i + 1, none, label ++ "?"⟩) ∨
      ∃ i ≤ pattern.length, ∃ label ∈ alphabet, pattern[i]? ≠ some label ∧
        e = ⟨i, pattern.length + 1, none, label ++ "?"⟩ := by
  simp only [monitor, List.mem_append, List.mem_mapIdx, List.mem_flatten, List.mem_map,
    List.mem_range, Nat.lt_succ_iff]
  apply or_congr
  · constructor
    · rintro ⟨i, hi, rfl⟩
      exact ⟨i, pattern[i], by simp, rfl⟩
    · rintro ⟨i, label, hi, rfl⟩
      obtain ⟨hlt, rfl⟩ := List.getElem?_eq_some_iff.1 hi
      exact ⟨i, hlt, rfl⟩
  · constructor
    · rintro ⟨_, ⟨i, hi, rfl⟩, he⟩
      exact ⟨i, hi, mem_failEdges.1 he⟩
    · rintro ⟨i, hi, he⟩
      exact ⟨_, ⟨i, hi, rfl⟩, mem_failEdges.2 he⟩

lemma mem_receiving_monitor {e : TemplateEdge} :
    e ∈ (monitor k pattern alphabet).receiving p a ↔
      (pattern[p]? = some a ∧ e = ⟨p, p + 1, none, a ++ "?"⟩) ∨
      (p ≤ pattern.length ∧ a ∈ alphabet ∧ pattern[p]? ≠ some a ∧
        e = ⟨p, pattern.length + 1, none, a ++ "?"⟩) := by
  rw [mem_receiving, mem_edges_monitor]
  constructor
  · rintro ⟨⟨i, label, hi, rfl⟩ | ⟨i, hle, label, hmem, hi, rfl⟩, rfl, hsync⟩
    · obtain rfl : label = a := (String.append_left_inj _).1 hsync
      exact .inl ⟨hi, rfl⟩
    · obtain rfl : label = a := (String.append_left_inj _).1 hsync
      exact .inr ⟨hle, hmem, hi, rfl⟩
  · rintro (⟨hp, rfl⟩ | ⟨hle, hmem, hp, rfl⟩)
    · exact ⟨.inl ⟨p, a, hp, rfl⟩, rfl, rfl⟩
    · exact ⟨.inr ⟨p, hle, a, hmem, hp, rfl⟩, rfl, rfl⟩

/-! ### Labels -/

/-- The label that the pattern expects moves a monitor on. -/
lemma hears_monitor_of_expected (hnext : pattern[p]? = some a) :
    (monitor k pattern alphabet).Hears p a q ↔ q = p + 1 := by
  refine hears_iff_of_target ⟨_, mem_receiving_monitor.2 (.inl ⟨hnext, rfl⟩)⟩ fun e he => ?_
  obtain ⟨-, rfl⟩ | ⟨-, -, hne, -⟩ := mem_receiving_monitor.1 he
  · rfl
  · exact absurd hnext hne

/-- Another label of the alphabet makes a monitor fail. -/
lemma hears_monitor_of_other (hp : p ≤ pattern.length) (ha : a ∈ alphabet)
    (hnext : pattern[p]? ≠ some a) :
    (monitor k pattern alphabet).Hears p a q ↔ q = pattern.length + 1 := by
  refine hears_iff_of_target
    ⟨_, mem_receiving_monitor.2 (.inr ⟨hp, ha, hnext, rfl⟩)⟩ fun e he => ?_
  obtain ⟨h, -⟩ | ⟨-, -, -, rfl⟩ := mem_receiving_monitor.1 he
  · exact absurd h hnext
  · rfl

/-- A label outside the alphabet leaves a monitor where it is. -/
lemma hears_monitor_of_not_mem (ha : a ∉ alphabet) (hnext : pattern[p]? ≠ some a) :
    (monitor k pattern alphabet).Hears p a q ↔ q = p := by
  refine hears_iff_of_deaf fun e he => ?_
  obtain ⟨h, -⟩ | ⟨-, h, -, -⟩ := mem_receiving_monitor.1 he
  · exact hnext h
  · exact ha h

/-- Behind the pattern there is `fail`, which nothing leaves. -/
lemma hears_monitor_of_length_lt (hp : pattern.length < p) :
    (monitor k pattern alphabet).Hears p a q ↔ q = p := by
  refine hears_iff_of_deaf fun e he => ?_
  obtain ⟨h, -⟩ | ⟨h, -⟩ := mem_receiving_monitor.1 he
  · rw [List.getElem?_eq_none hp.le] at h
    cases h
  · exact absurd hp (Nat.not_lt_of_le h)

/-! ### Positions -/

/-- The position of a monitor that has heard the given labels of its alphabet. -/
def monitorPosition (pattern heard : List String) : Nat :=
  if heard <+: pattern then heard.length else pattern.length + 1

/-- What a monitor has heard after one more label. -/
def hearing (alphabet heard : List String) (label : String) : List String :=
  if label ∈ alphabet then heard ++ [label] else heard

lemma foldl_hearing : w.foldl (hearing alphabet) u = u ++ w.filter (· ∈ alphabet) := by
  induction w generalizing u with
  | nil => simp
  | cons a w ih => by_cases ha : a ∈ alphabet <;> simp [hearing, ha, ih]

lemma append_singleton_prefix_iff :
    u ++ [a] <+: pattern ↔ u <+: pattern ∧ pattern[u.length]? = some a := by
  constructor
  · rintro ⟨rest, rfl⟩
    simp
  · rintro ⟨⟨rest, rfl⟩, h⟩
    cases rest with
    | nil => simp at h
    | cons b rest =>
      obtain rfl : b = a := by simpa using h
      exact ⟨rest, by simp⟩

lemma not_hearing_initial (hu : ¬ u <+: pattern) : ¬ hearing alphabet u a <+: pattern := by
  unfold hearing
  split
  · exact fun h => hu ((List.prefix_append u [a]).trans h)
  · exact hu

lemma hears_monitor_iff (hsub : ∀ b ∈ pattern, b ∈ alphabet) :
    (monitor k pattern alphabet).Hears (monitorPosition pattern u) a q ↔
      q = monitorPosition pattern (hearing alphabet u a) := by
  by_cases hu : u <+: pattern
  · have hplace : monitorPosition pattern u = u.length := if_pos hu
    by_cases hnext : pattern[u.length]? = some a
    · have ha : a ∈ alphabet := hsub a (List.mem_of_getElem? hnext)
      have hinitial : u ++ [a] <+: pattern := append_singleton_prefix_iff.2 ⟨hu, hnext⟩
      rw [hplace, hearing, if_pos ha, monitorPosition, if_pos hinitial, List.length_append]
      exact hears_monitor_of_expected hnext
    · by_cases ha : a ∈ alphabet
      · have hinitial : ¬ u ++ [a] <+: pattern :=
          fun h => hnext (append_singleton_prefix_iff.1 h).2
        rw [hplace, hearing, if_pos ha, monitorPosition, if_neg hinitial]
        exact hears_monitor_of_other hu.length_le ha hnext
      · rw [hearing, if_neg ha, hplace]
        exact hears_monitor_of_not_mem ha hnext
  · rw [monitorPosition, if_neg hu, monitorPosition, if_neg (not_hearing_initial hu)]
    exact hears_monitor_of_length_lt (Nat.lt_succ_self _)

lemma monitorPosition_lt :
    monitorPosition pattern u < (monitor k pattern alphabet).locations.length := by
  have hlength : (monitor k pattern alphabet).locations.length = pattern.length + 2 := by
    simp [monitor]
  rw [hlength, monitorPosition]
  split
  · next hu => exact Nat.lt_add_right 1 (Nat.lt_succ_of_le hu.length_le)
  · exact Nat.lt_succ_self _

/-- A monitor reads a word to the position of the labels that count. -/
lemma reads_monitor_iff (hsub : ∀ b ∈ pattern, b ∈ alphabet) :
    (monitor k pattern alphabet).Reads 0 w p ↔
      p = monitorPosition pattern (w.filter (· ∈ alphabet)) := by
  have hstart : monitorPosition pattern [] = 0 := by simp [monitorPosition]
  rw [← hstart, reads_iff_foldl (fun u a q => hears_monitor_iff hsub), foldl_hearing,
    List.nil_append]

/-! ### Passing -/

/-- Only the location behind the last label is called `pass`. -/
lemma nameAt?_monitor_eq_pass_iff :
    (monitor k pattern alphabet).nameAt? p = some "pass" ↔ p = pattern.length := by
  rcases Nat.lt_trichotomy p (pattern.length + 1) with hp | rfl | hp
  · have hloc : (monitor k pattern alphabet).locations[p]? =
        some ⟨chainName "saw" "pass" pattern.length p, none⟩ := by
      simp [monitor, List.getElem?_append_left, hp]
    simp [nameAt?, hloc, apart_saw.chainName_eq_last_iff]
  · have hloc : (monitor k pattern alphabet).locations[pattern.length + 1]? =
        some ⟨"fail", none⟩ := by
      simp [monitor]
    simp [nameAt?, hloc]
  · have hloc : (monitor k pattern alphabet).locations[p]? = none := by
      rw [List.getElem?_eq_none_iff]
      simp [monitor]
      omega
    simp only [nameAt?, hloc, Option.map_none, reduceCtorEq, false_iff]
    omega

lemma monitorPosition_eq_length_iff : monitorPosition pattern u = pattern.length ↔ u = pattern := by
  unfold monitorPosition
  split
  · next hu =>
    constructor
    · exact fun h => hu.eq_of_length h
    · rintro rfl
      rfl
  · next hu =>
    refine iff_of_false (by omega) ?_
    rintro rfl
    exact hu (List.prefix_refl u)

/-- A monitor passes on the words of which the pattern is what counts. -/
theorem passes_monitor_iff (hsub : ∀ b ∈ pattern, b ∈ alphabet) :
    (monitor k pattern alphabet).Passes w ↔ w.filter (· ∈ alphabet) = pattern := by
  simp only [Passes, reads_monitor_iff hsub, exists_eq_left, nameAt?_monitor_eq_pass_iff,
    monitorPosition_eq_length_iff]

end TimedPatterns.Template
