import TimedPatterns.Proofs.Text.Numeral
import TimedPatterns.Template.Signal

/-!
# The names along a chain

The locations along a chain are called `start`, then by a stem and a number each, and the last one
has a name of its own. The first location of a chain without actions is the last one too. As long as
a number behind the stem makes neither `start` nor the last name, all these names are different, so
that a location is known by its name.
-/

namespace TimedPatterns.Template

open Text (toString_nat_injective)

variable {stem last : String} {length taken : Nat}

/-- The three kinds of names along a chain: its end, its start, and the numbered ones between. -/
lemma chainName_cases (stem last : String) (length taken : Nat) :
    (taken = length ∧ chainName stem last length taken = last) ∨
    (taken ≠ length ∧ taken = 0 ∧ chainName stem last length taken = "start") ∨
    (taken ≠ length ∧ taken ≠ 0 ∧
      chainName stem last length taken = stem ++ toString (taken - 1)) := by
  rw [chainName]
  by_cases hlast : taken = length
  · exact .inl ⟨hlast, if_pos hlast⟩
  · rw [if_neg hlast]
    by_cases hstart : taken = 0
    · exact .inr (.inl ⟨hlast, hstart, if_pos hstart⟩)
    · exact .inr (.inr ⟨hlast, hstart, if_neg hstart⟩)

lemma chainName_length (stem last : String) (length : Nat) :
    chainName stem last length length = last := if_pos rfl

lemma chainName_zero (stem last : String) (hlength : length ≠ 0) :
    chainName stem last length 0 = "start" := by
  rw [chainName, if_neg hlength.symm, if_pos rfl]

/-- What is put behind a text leaves it at the beginning. -/
lemma append_ne_of_not_initial {text : String} (h : ¬ stem.toList <+: text.toList)
    (rest : String) : stem ++ rest ≠ text := by
  rintro rfl
  exact h ⟨rest.toList, String.toList_append.symm⟩

/-- What keeps the names along a chain apart from each other. -/
structure Apart (stem last : String) : Prop where
  last_ne_start : last ≠ "start"
  numbered_ne_start (i : Nat) : stem ++ toString i ≠ "start"
  numbered_ne_last (i : Nat) : stem ++ toString i ≠ last

lemma apart_saw : Apart "saw" "pass" where
  last_ne_start := by decide
  numbered_ne_start _ := append_ne_of_not_initial (by decide) _
  numbered_ne_last _ := append_ne_of_not_initial (by decide) _

lemma apart_sent : Apart "sent" "done" where
  last_ne_start := by decide
  numbered_ne_start _ := append_ne_of_not_initial (by decide) _
  numbered_ne_last _ := append_ne_of_not_initial (by decide) _

namespace Apart

lemma chainName_injective (h : Apart stem last) :
    Function.Injective (chainName stem last length) := by
  intro i j heq
  rcases chainName_cases stem last length i with ⟨hi, hname⟩ | ⟨-, hi, hname⟩ | ⟨-, hi, hname⟩ <;>
    rcases chainName_cases stem last length j with
      ⟨hj, hname'⟩ | ⟨-, hj, hname'⟩ | ⟨-, hj, hname'⟩ <;>
    rw [hname, hname'] at heq
  · exact hi.trans hj.symm
  · exact absurd heq h.last_ne_start
  · exact absurd heq.symm (h.numbered_ne_last _)
  · exact absurd heq.symm h.last_ne_start
  · exact hi.trans hj.symm
  · exact absurd heq.symm (h.numbered_ne_start _)
  · exact absurd heq (h.numbered_ne_last _)
  · exact absurd heq (h.numbered_ne_start _)
  · have hpred := toString_nat_injective ((String.append_right_inj stem).1 heq)
    omega

/-- The last location of a chain is known by its name, and so is the first one. -/
lemma chainName_eq_last_iff (h : Apart stem last) :
    chainName stem last length taken = last ↔ taken = length := by
  constructor
  · exact fun heq => h.chainName_injective (heq.trans (chainName_length stem last length).symm)
  · rintro rfl
    exact chainName_length stem last taken

lemma chainName_eq_start_iff (h : Apart stem last) (hlength : length ≠ 0) :
    chainName stem last length taken = "start" ↔ taken = 0 := by
  constructor
  · exact fun heq => h.chainName_injective (heq.trans (chainName_zero stem last hlength).symm)
  · rintro rfl
    exact chainName_zero stem last hlength

end Apart

def chainNames (stem last : String) (length : Nat) : List String :=
  (List.range (length + 1)).map (chainName stem last length)

lemma Apart.nodup_chainNames (h : Apart stem last) (length : Nat) :
    (chainNames stem last length).Nodup :=
  List.nodup_range.map h.chainName_injective

lemma last_mem_chainNames (stem last : String) (length : Nat) :
    last ∈ chainNames stem last length :=
  List.mem_map.2 ⟨length, by simp, chainName_length stem last length⟩

/-- What holds of the three kinds of names holds of the names along a chain. -/
lemma forall_mem_chainNames {P : String → Prop} (hlast : P last) (hstart : P "start")
    (hnumbered : ∀ i : Nat, P (stem ++ toString i)) :
    ∀ name ∈ chainNames stem last length, P name := by
  rw [chainNames, List.forall_mem_map]
  intro taken _
  rcases chainName_cases stem last length taken with
    ⟨-, hname⟩ | ⟨-, -, hname⟩ | ⟨-, -, hname⟩ <;> rw [hname]
  · exact hlast
  · exact hstart
  · exact hnumbered _

end TimedPatterns.Template
