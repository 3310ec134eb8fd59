import TimedPatterns.Proofs.Model.Insertion

/-!
# The order of the places

The templates go between the place where the clock is declared and the semicolon of the `system`
line. If the model has declarations before its first template, these places are in order. If it has
none, the clock is declared behind the first tag of the network, which is looked for in the whole
model and may be found behind the place of the templates; such a model is not instrumented, and not
refused either.
-/

namespace TimedPatterns.Model

open Text

variable {model : List Char} {p : Instrumentation} {clock : String}

/-- The semicolon is behind the `<system>`, and within the model. -/
lemma Cut.in_order (c : Cut model) :
    c.head.length < (c.head ++ c.line).length ∧ (c.head ++ c.line).length < model.length := by
  have hline : 0 < c.line.length := List.length_pos_of_ne_nil fun h => by
    have hopened := c.opened
    rw [h, List.prefix_nil] at hopened
    exact absurd hopened (by decide)
  have hclose : "</system>".toList.length = 9 := rfl
  have hlength := congrArg List.length c.append
  simp only [List.length_append] at hlength ⊢
  omega

/-- The clock is declared within the head, or behind the first tag of the network. -/
lemma Place.prefix_head_or {before declaration : List Char} (c : Cut model)
    (h : Place model clock before declaration) :
    before <+: c.head ∨ (¬ "<declaration>".toList <:+: globals model ∧ before <+: model ∧
      EndsFirstTag before) := by
  cases h with
  | declarations hglobals _ =>
    exact .inl (List.IsPrefix.trans ⟨_, (List.append_assoc _ _ _).trans hglobals.symm⟩
      c.globals_isPrefix)
  | network hnone hmodel hbefore => exact .inr ⟨hnone, ⟨_, hmodel.symm⟩, hbefore⟩

lemma Place.prefix_model {before declaration : List Char} (c : Cut model)
    (h : Place model clock before declaration) : before <+: model :=
  (h.prefix_head_or c).elim (fun hbefore => hbefore.trans c.head_isPrefix)
    fun hbefore => hbefore.2.1

/-- If the clock has to be declared, the model is crossed exactly if the place of the declaration is
behind that of the templates. -/
lemma instrumentChars_eq_crossed_iff {before declaration : List Char} (c : Cut model)
    (hneeds : NeedsClock model p) (hplace : Place model p.clock before declaration) :
    instrumentChars model p = .crossed ↔ c.head.length < before.length := by
  have hinitial : before <+: c.head ↔ before.length ≤ c.head.length :=
    ⟨List.IsPrefix.length_le,
      List.prefix_of_prefix_length_le (hplace.prefix_model c) c.head_isPrefix⟩
  rw [← not_le, ← hinitial]
  rcases instrumentChars_cases c hneeds.1.templates_ne_nil with ⟨hnot, -⟩ |
    ⟨-, before', declaration', hplace', hout⟩ | ⟨-, hnone, -⟩
  · exact absurd hneeds hnot
  · obtain ⟨rfl, rfl⟩ := hplace.unique hplace'
    rcases hout with ⟨between, hhead, hout⟩ | ⟨hnot, hout⟩ <;> rw [hout]
    · exact iff_of_false nofun fun h => h ⟨between, hhead.symm⟩
    · exact iff_of_true rfl hnot
  · exact absurd hplace (hnone before declaration)

/-- A model is crossed if a signal is sent or received, there are no declarations before the first
template, and the first tag of the network ends behind the place of the templates. -/
lemma crossed_iff_network_behind : instrumentChars model p = .crossed ↔ p.HasSignal ∧
    ∃ (c : Cut model) (before after : List Char),
      ¬ "<declaration>".toList <:+: globals model ∧
      model = before ++ after ∧ EndsFirstTag before ∧ c.head.length < before.length := by
  constructor
  · intro h
    by_cases htemplates : p.templates = []
    · rw [instrumentChars_of_templates_eq_nil htemplates] at h
      cases h
    rcases isEmpty_or_nonempty (Cut model) with hcut | ⟨⟨c⟩⟩
    · obtain ⟨why, hwhy⟩ := refused_of_isEmpty_cut htemplates hcut
      rw [hwhy] at h
      cases h
    -- only a declaration that has to be inserted can cross the cut, and only one behind the
    -- network's tag: the section of declarations is looked for in front of the cut
    rcases instrumentChars_cases c htemplates with ⟨-, hout⟩ |
      ⟨hneeds, before, declaration, hplace, -⟩ | ⟨-, -, hout⟩
    · rw [hout] at h
      cases h
    · have hlength := (instrumentChars_eq_crossed_iff c hneeds hplace).1 h
      rcases hplace.prefix_head_or c with hbefore | ⟨hnone, ⟨after, hmodel⟩, hfirst⟩
      · exact absurd hbefore.length_le (not_le.2 hlength)
      · exact ⟨hneeds.1, c, before, after, hnone, hmodel.symm, hfirst, hlength⟩
    · rw [hout] at h
      cases h
  · rintro ⟨hsignal, c, before, after, hnone, hmodel, hfirst, hlength⟩
    exact (instrumentChars_eq_crossed_iff c ⟨hsignal, not_declared hnone⟩
      (.network hnone hmodel hfirst)).2 hlength

/-- The templates go before the end of the `system` line, and this is within the model. A model is
instrumented or refused unless a signal is sent or received, there are no declarations before the
first template, and the first tag of the network ends behind the beginning of the first `<system>`;
that is, unless the clock has to be declared behind the place of the templates. -/
theorem instrument_eq_crossed_iff (model : String) (p : Instrumentation) :
    (instrument model p = .crossed ↔ p.HasSignal ∧
      ∃ (c : Cut model.toList) (before after : List Char),
        ¬ "<declaration>".toList <:+: globals model.toList ∧
        model.toList = before ++ after ∧ EndsFirstTag before ∧ c.head.length < before.length) ∧
    ∀ c : Cut model.toList,
      c.head.length < (c.head ++ c.line).length ∧
      (c.head ++ c.line).length < model.toList.length ∧
      ∀ before declaration, NeedsClock model.toList p →
        Place model.toList p.clock before declaration →
          before <+: model.toList ∧
          (instrument model p = .crossed ↔ c.head.length < before.length) :=
  ⟨crossed_iff_network_behind, fun c => ⟨c.in_order.1, c.in_order.2,
    fun _ _ hneeds hplace =>
      ⟨hplace.prefix_model c, instrumentChars_eq_crossed_iff c hneeds hplace⟩⟩⟩

/-- A plan that sends a signal. -/
def plan : Instrumentation where
  clock := "x"
  input := some ⟨[⟨"go", 0, 5⟩]⟩

/-- A model with its network behind its `<system>` is neither instrumented nor refused. -/
theorem not_instrument_in_order : ¬ ∀ (model : String) (p : Instrumentation),
    instrument model p ≠ .crossed :=
  fun h => h "<system>system P;</system><nta></nta>" plan (by decide)

end TimedPatterns.Model
