import TimedPatterns.Proofs.Instrumentation.Monitors

/-!
# The names in a query

The query of an instrumentation speaks of locations of the templates that it adds: it asks for a run
that reaches the last location of each signal and in which no monitor is in `pass`. The templates
are added in the order in which the query mentions them, no two of them have the same name, and in
each of them exactly one location has the name that the query uses.
-/

namespace TimedPatterns

/-! ### Locations -/

namespace Template

def locationNames (t : Template) : List String := t.locations.map (·.name)

/-- No location along a chain is called `fail`, so that `fail` may be put behind it. -/
lemma nodup_chainNames_append_fail (length : Nat) :
    (chainNames "saw" "pass" length ++ ["fail"]).Nodup := by
  have hne : ∀ name ∈ chainNames "saw" "pass" length, name ≠ "fail" :=
    forall_mem_chainNames (by decide) (by decide) fun _ => append_ne_of_not_initial (by decide) _
  refine (apart_saw.nodup_chainNames length).append (List.nodup_singleton _) ?_
  rw [List.disjoint_singleton]
  exact fun hfail => hne "fail" hfail rfl

lemma locationNames_input (w : TimedWord) (clock : String) :
    (input w clock).locationNames = chainNames "sent" "done" w.length := by
  simp only [locationNames, input, chainNames, List.map_map, Function.comp_def]

lemma locationNames_observer (w : TimedWord) (alphabet : Option (List String)) (clock : String) :
    (observer w alphabet clock).locationNames =
      chainNames "saw" "pass" w.length ++ if alphabet.isSome then ["fail"] else [] := by
  simp only [locationNames, observer, chainNames, List.map_append, List.map_map,
    Function.comp_def]
  split <;> rfl

lemma locationNames_monitor (k : Nat) (pattern alphabet : List String) :
    (monitor k pattern alphabet).locationNames =
      chainNames "saw" "pass" pattern.length ++ ["fail"] := by
  simp only [locationNames, monitor, chainNames, List.map_append, List.map_map,
    Function.comp_def, List.map_cons, List.map_nil]

end Template

/-! ### Mentions -/

/-- What a query says about a location of a template: that it is reached, or that it is avoided. -/
structure Mention where
  template : String
  location : String
  avoided : Bool
  deriving DecidableEq, Repr

namespace Mention

variable {w : TimedWord} {clock : String} {k : Nat} {pattern alphabet : List String}

def formula (m : Mention) : String :=
  (if m.avoided then "!" else "") ++ m.template ++ "." ++ m.location

/-- The template is the one that is mentioned, its locations are called differently, and exactly
one of them has the name that is mentioned. -/
structure Names (m : Mention) (t : Template) : Prop where
  name_eq : t.name = m.template
  nodup : t.locationNames.Nodup
  existsUnique : ∃! l, l ∈ t.locations ∧ l.name = m.location

lemma Names.of_mem {m : Mention} {t : Template} (hname : t.name = m.template)
    (hnodup : t.locationNames.Nodup) (hmem : m.location ∈ t.locationNames) : m.Names t := by
  refine ⟨hname, hnodup, ?_⟩
  obtain ⟨l, hl, hlocation⟩ := List.mem_map.1 hmem
  refine ⟨l, ⟨hl, hlocation⟩, fun other hother => ?_⟩
  exact List.inj_on_of_nodup_map hnodup hother.1 hl (hother.2.trans hlocation.symm)

/-- The end of the input is reached. -/
def input : Mention := ⟨Template.inputName, "done", false⟩

/-- The end of the observations is reached. -/
def observer : Mention := ⟨Template.observerName, "pass", false⟩

/-- A monitor does not pass. -/
def monitor (k : Nat) : Mention := ⟨Template.monitorName k, "pass", true⟩

lemma formula_monitor (k : Nat) :
    (monitor k).formula = "!" ++ Template.monitorName k ++ ".pass" := by
  have hpass : "." ++ "pass" = ".pass" := by decide
  rw [formula, String.append_assoc, monitor, hpass]
  rfl

lemma names_input : input.Names (.input w clock) := by
  refine .of_mem rfl ?_ ?_ <;> rw [Template.locationNames_input]
  · exact Template.apart_sent.nodup_chainNames _
  · exact Template.last_mem_chainNames _ _ _

lemma names_observer {alphabet : Option (List String)} :
    observer.Names (.observer w alphabet clock) := by
  refine .of_mem rfl ?_ ?_ <;> rw [Template.locationNames_observer]
  · split
    · exact Template.nodup_chainNames_append_fail _
    · rw [List.append_nil]
      exact Template.apart_saw.nodup_chainNames _
  · exact List.mem_append_left _ (Template.last_mem_chainNames _ _ _)

lemma names_monitor : (monitor k).Names (.monitor k pattern alphabet) := by
  refine .of_mem rfl ?_ ?_ <;> rw [Template.locationNames_monitor]
  · exact Template.nodup_chainNames_append_fail _
  · exact List.mem_append_left _ (Template.last_mem_chainNames _ _ _)

end Mention

namespace Instrumentation

variable {p : Instrumentation}

/-- The instrumentations that are put together from a clock. -/
inductive Built : Instrumentation → Prop
  | new (clock : String) : Built { clock := clock }
  | withSignals {p : Instrumentation} (input observed : TimedWord)
      (alphabet : Option (List String)) :
      Built p → Built (p.withSignals input observed alphabet)
  | excluding {p : Instrumentation} (patterns : List (List String)) (alphabet : List String) :
      Built p → Built (p.excluding patterns alphabet)

lemma isEmpty_eq_false_of_signal? {w word : TimedWord} (h : signal? w = some word) :
    word.isEmpty = false := by
  unfold signal? at h
  split_ifs at h with hempty
  obtain rfl := Option.some.inj h
  simpa using hempty

/-- A signal that is built in is not empty. -/
lemma Built.isEmpty_eq_false (h : p.Built) :
    ∀ w, p.input = some w ∨ p.observed = some w → w.isEmpty = false := by
  induction h with
  | new clock => rintro w (h | h) <;> exact absurd h (by simp)
  | withSignals input observed alphabet _ _ =>
    rintro w (h | h) <;> exact isEmpty_eq_false_of_signal? h
  | excluding patterns alphabet _ ih => exact ih

/-! ### The templates that are mentioned -/

/-- What the query says, in its order. -/
def mentions (p : Instrumentation) : List Mention :=
  (if p.input.isSome then [Mention.input] else [])
    ++ (if p.observed.isSome then [Mention.observer] else [])
    ++ (List.range p.excluded.length).map Mention.monitor

lemma forall₂_monitors (patterns : List (List String)) (alphabet : List String) :
    List.Forall₂ Mention.Names ((List.range patterns.length).map Mention.monitor)
      (patterns.mapIdx fun k pattern => .monitor k pattern alphabet) := by
  refine List.forall₂_iff_get.2 ⟨by simp, fun k hk hk' => ?_⟩
  simp only [List.get_eq_getElem, List.getElem_map, List.getElem_range, List.getElem_mapIdx]
  exact Mention.names_monitor

/-- Each template is mentioned once, in the order of the templates. -/
lemma forall₂_mentions (p : Instrumentation) :
    List.Forall₂ Mention.Names p.mentions p.templates := by
  refine List.rel_append (List.rel_append ?_ ?_) (forall₂_monitors _ _)
  · cases p.input with
    | none => exact .nil
    | some w => exact .cons Mention.names_input .nil
  · cases p.observed with
    | none => exact .nil
    | some w => exact .cons Mention.names_observer .nil

/-- The names of the templates are the ones that are mentioned, in the same order. -/
lemma map_name_templates (p : Instrumentation) :
    p.templates.map (·.name) = p.mentions.map (·.template) := by
  have hsame := (forall₂_mentions p).imp fun _ _ h => h.name_eq.symm
  rw [← List.forall₂_eq_eq_eq, List.forall₂_map_left_iff, List.forall₂_map_right_iff]
  exact hsame.flip.imp fun _ _ h => h.symm

lemma map_template_mentions (p : Instrumentation) :
    p.mentions.map (·.template) =
      (if p.input.isSome then [Template.inputName] else [])
        ++ (if p.observed.isSome then [Template.observerName] else []) ++ p.monitors := by
  simp only [mentions, monitors, List.map_append, apply_ite (List.map _), List.map_map]
  rfl

lemma nodup_monitors (p : Instrumentation) : p.monitors.Nodup :=
  List.nodup_range.map Template.monitorName_injective

lemma not_mem_monitors {name : String} (h : ∀ k, name ≠ Template.monitorName k) :
    name ∉ p.monitors := by
  rw [monitors, List.mem_map]
  rintro ⟨k, -, hk⟩
  exact h k hk.symm

/-- No two templates have the same name. -/
lemma nodup_names (p : Instrumentation) : (p.templates.map (·.name)).Nodup := by
  have hinput : Template.inputName ∉ p.monitors :=
    not_mem_monitors Template.inputName_ne_monitorName
  have hobserver : Template.observerName ∉ p.monitors :=
    not_mem_monitors Template.observerName_ne_monitorName
  have hsignals : Template.inputName ≠ Template.observerName := by decide
  rw [map_name_templates, map_template_mentions]
  cases p.input <;> cases p.observed <;>
    simp [nodup_monitors, hinput, hobserver, hsignals]

lemma templates_eq_nil_iff : p.templates = [] ↔ p.isEmpty = true := by
  simp [templates, isEmpty, and_assoc]

/-! ### The query -/

/-- What the query asks to reach; anything at all without a signal. -/
def reached (p : Instrumentation) : List String := if p.goals = [] then ["true"] else p.goals

/-- The formula of the query, conjunct by conjunct. -/
def conjuncts (p : Instrumentation) : List String :=
  (if p.input.isNone && p.observed.isNone then ["true"] else []) ++ p.mentions.map (·.formula)

lemma goals_eq (p : Instrumentation) :
    p.goals = (if p.input.isSome then [Mention.input.formula] else [])
      ++ if p.observed.isSome then [Mention.observer.formula] else [] := by
  have hinput : Mention.input.formula = Template.inputName ++ ".done" := by decide
  have hobserver : Mention.observer.formula = Template.observerName ++ ".pass" := by decide
  rw [goals, hinput, hobserver]
  cases p.input <;> cases p.observed <;> rfl

lemma goals_cases (p : Instrumentation) :
    p.goals = [] ∨ p.goals = ["PatternInput.done"] ∨ p.goals = ["PatternObserver.pass"] ∨
      p.goals = ["PatternInput.done", "PatternObserver.pass"] := by
  rw [goals_eq]
  cases p.input.isSome <;> cases p.observed.isSome <;> decide

lemma reached_ne_nil (p : Instrumentation) : p.reached ≠ [] := by
  unfold reached
  split_ifs with h
  · exact List.cons_ne_nil _ _
  · exact h

lemma goal_eq (p : Instrumentation) : p.goal = ⟨"E<> " ++ " && ".intercalate p.reached⟩ := by
  unfold goal reached
  rcases p.goals_cases with h | h | h | h <;> rw [h] <;> decide

lemma formula?_goal (p : Instrumentation) :
    p.goal.formula? = some (" && ".intercalate p.reached).toList := by
  unfold goal reached
  rcases p.goals_cases with h | h | h | h <;> rw [h] <;> decide

/-- The query needs no parentheses before a monitor is ruled out. -/
lemma isLoose_reached (p : Instrumentation) :
    Query.isLoose (" && ".intercalate p.reached).toList = false := by
  unfold reached
  rcases p.goals_cases with h | h | h | h <;> rw [h] <;> decide

lemma conjuncts_eq (p : Instrumentation) :
    p.conjuncts = p.reached ++ p.monitors.map fun name => "!" ++ name ++ ".pass" := by
  simp only [conjuncts, mentions, monitors, List.map_append, List.map_map, Function.comp_def,
    Mention.formula_monitor, ← List.append_assoc]
  congr 1
  cases hinput : p.input <;> cases hobserved : p.observed <;>
    simp [reached, goals_eq, hinput, hobserved]

/-- Conjuncts are added at the end of a formula that is not empty. -/
lemma intercalate_append_exclusions {formulas : List String} (h : formulas ≠ [])
    (monitors : List String) :
    " && ".intercalate (formulas ++ monitors.map fun name => "!" ++ name ++ ".pass") =
      " && ".intercalate formulas ++ String.join (monitors.map Query.exclusion) := by
  induction monitors generalizing formulas with
  | nil => simp
  | cons name monitors ih =>
    have hname : formulas ++ ["!" ++ name ++ ".pass"] ≠ [] := by simp
    have hlast := String.intercalate_append_of_ne_nil (s := " && ") h
      (List.cons_ne_nil ("!" ++ name ++ ".pass") [])
    rw [List.map_cons, List.append_cons, ih hname, hlast, String.intercalate_singleton,
      List.map_cons, String.join_cons]
    simp only [Query.exclusion, String.append_assoc]
    rfl

lemma excluding_goal (p : Instrumentation) :
    p.goal.excluding p.monitors = some ⟨"E<> " ++ " && ".intercalate p.conjuncts⟩ := by
  rw [conjuncts_eq, intercalate_append_exclusions p.reached_ne_nil]
  cases p.monitors with
  | nil => simp [Query.excluding, goal_eq]
  | cons name monitors =>
    rw [Query.excluding, formula?_goal]
    simp only [Option.map_some, String.toList_ofList, String.ofList_toList, isLoose_reached,
      List.map_cons, Bool.false_eq_true, if_false, String.append_assoc]
    rfl

/-- The query is the conjunction of what is mentioned, with `true` for the goals if there is no
signal. The templates are the ones that are mentioned, in the same order and with different names.
The locations of each have different names, one of which is the name that is mentioned. There is
no template if and only if there is nothing to add. -/
theorem query_names_templates (h : p.Built) :
    p.goal.excluding p.monitors = some ⟨"E<> " ++ " && ".intercalate p.conjuncts⟩ ∧
      List.Forall₂ Mention.Names p.mentions p.templates ∧
      (p.templates.map (·.name)).Nodup ∧
      (∀ w, p.input = some w ∨ p.observed = some w → w.isEmpty = false) ∧
      (p.templates = [] ↔ p.isEmpty = true) :=
  ⟨p.excluding_goal, p.forall₂_mentions, p.nodup_names, h.isEmpty_eq_false, templates_eq_nil_iff⟩

/-- A signal of one action, one observation, and two patterns that are ruled out, the first of which
is empty. -/
def sample : Instrumentation :=
  (withSignals { clock := "x" } ⟨[⟨"go", 0, 5⟩]⟩ ⟨[⟨"ack", -1, -1⟩]⟩ none).excluding
    [[], ["a", "b"]] ["a", "b"]

lemma query_names_templates_sample :
    sample.Built ∧
      sample.goal.excluding sample.monitors =
        some ⟨"E<> PatternInput.done && PatternObserver.pass && " ++
          "!PatternMonitor0.pass && !PatternMonitor1.pass"⟩ ∧
      List.Forall₂ Mention.Names [.input, .observer, .monitor 0, .monitor 1] sample.templates := by
  have hbuilt : sample.Built := .excluding _ _ (.withSignals _ _ _ (.new "x"))
  obtain ⟨hquery, hnames, -⟩ := query_names_templates hbuilt
  exact ⟨hbuilt, hquery.trans (by decide), hnames⟩

end Instrumentation

end TimedPatterns
