import TimedPatterns.Proofs.Model.Inert
import TimedPatterns.Proofs.Model.Insertion

/-!
# Models that are instrumented again

The outcome of instrumenting a model is a model. Its first `<system>` is still the one that the
templates were put before, and the declarations before its first template are those of the model
with the declaration of the clock. So the clock is declared once, however often the model is
instrumented.
-/

namespace TimedPatterns.Model

open Text

variable {model out before between declaration : List Char} {p : Instrumentation} {clock : String}

/-! ### The parts of the outcome -/

section Outcome

variable {head : List Char}

lemma head?_templateText (h : p.templates ≠ []) : (templateText p.templates).head? = some '<' := by
  obtain ⟨rest, hrest⟩ := tag_prefix_templateText h
  rw [← hrest]
  rfl

lemma head?_nameText (templates : List Template) : (nameText templates).head? = some ',' := rfl

/-- The outcome is cut as the model was: before the `<system>` that the templates were put before,
and before the semicolon of the same line. -/
def Cut.again (c : Cut model) (h : p.templates ≠ []) (hhead : ¬ "<system>".toList <:+: head) :
    Cut (head ++ c.behind p.templates) where
  head := head ++ templateText p.templates
  line := c.line ++ nameText p.templates
  tail := c.tail
  after := c.after
  append := by simp only [behind, rest, List.append_assoc]
  first := by
    refine not_infix_append hhead ((inert_templateText p).1.not_isInfix (by decide)) ?_
    rw [head?_templateText h]
    rintro c ⟨⟩
    decide
  opened := c.opened.trans (List.prefix_append _ _)
  closed := by
    have hnames : Clear "</system>".toList (nameText p.templates) :=
      clear_of_not_mem (not_mem_nameText (by decide) (by decide) p) _
    rw [List.append_assoc]
    refine not_infix_append (fun h => c.closed (h.trans (List.prefix_append _ _).isInfix)) ?_ ?_
    · rw [hnames.infix_append_iff]
      exact fun h => c.closed (h.trans (List.suffix_append _ _).isInfix)
    · rw [List.head?_append, head?_nameText, Option.some_or]
      rintro c ⟨⟩
      decide
  last := c.last.append (not_mem_nameText (by decide) (by decide) p)

/-- The declarations before the first template are not changed by the templates. -/
lemma globals_outcome (c : Cut model) (h : p.templates ≠ [])
    (hhead : ¬ "<system>".toList <:+: head) :
    globals (head ++ c.behind p.templates) = beforeFirst "<template>".toList head := by
  obtain ⟨rest, hrest⟩ := tag_prefix_templateText h
  have heq : (c.again h hhead).head = head ++ ("<template>".toList ++ rest) := by
    rw [hrest]
    rfl
  rw [(c.again h hhead).globals_eq, heq, beforeFirst_append_sign (by decide) (by decide)]

end Outcome

/-! ### Declaring the clock -/

/-- A word is declared behind `clock` and before a semicolon. -/
lemma declares_word (pre rest : List Char) {name : List Char} (hne : name ≠ [])
    (hword : ∀ c ∈ name, isWord c = true) (hpre : ∀ c ∈ pre.getLast?, isWord c = false) :
    Declares (pre ++ ("clock".toList ++ (' ' :: (name ++ (';' :: rest))))) name := by
  have hboundary {before : Option Char} {c : Char} (hbefore : ∀ d ∈ before, isWord d = false)
      (hc : isWord c = true) : isBoundary before (some c) = true := by
    rw [isBoundary, bne_iff_ne]
    cases before with
    | none => simp [hc]
    | some d => simp [hc, hbefore d rfl]
  refine ⟨pre, [' '], ';' :: rest, rfl, by decide, ⟨hboundary hpre (by decide), ?_⟩, ?_, ?_⟩
  · rw [List.getLast?_append_of_ne_nil _ (by decide)]
    show isBoundary "clock".toList.getLast? (some ' ') = true
    decide
  · obtain ⟨c, cs, rfl⟩ := List.exists_cons_of_ne_nil hne
    rw [List.getLast?_concat]
    exact hboundary (by rintro d ⟨⟩; decide) (hword c List.mem_cons_self)
  · rw [List.getLast?_append_of_ne_nil _ hne, List.getLast?_eq_some_getLast hne,
      isBoundary, bne_iff_ne, Option.any_some, hword _ (List.getLast_mem hne)]
    show true ≠ isWord ';'
    decide

/-! ### The place of the declaration -/

lemma lt_not_mem (hword : ∀ c ∈ clock.toList, isWord c = true) : '<' ∉ clock.toList :=
  fun hmem => absurd (hword '<' hmem) (by decide)

lemma toList_declaration (clock : String) : s!"\nclock {clock};\n".toList =
    ['\n'] ++ ("clock".toList ++ (' ' :: (clock.toList ++ (';' :: ['\n'])))) := by
  have heq : s!"\nclock {clock};\n" = "\nclock " ++ clock ++ ";\n" := rfl
  rw [heq, String.toList_append, String.toList_append, List.append_assoc]
  rfl

lemma toList_declarations (clock : String) :
    s!"\n<declaration>clock {clock};</declaration>".toList =
      ['\n'] ++ ("<declaration>".toList ++ ([] ++ ("clock".toList ++ (' ' :: (clock.toList ++
        (';' :: "</declaration>".toList)))))) := by
  have heq : s!"\n<declaration>clock {clock};</declaration>" =
    "\n<declaration>clock " ++ clock ++ ";</declaration>" := rfl
  rw [heq, String.toList_append, String.toList_append, List.append_assoc]
  rfl

lemma Place.getLast? (h : Place model clock before declaration) : before.getLast? = some '>' := by
  cases h with
  | declarations _ _ => rw [List.getLast?_append_of_ne_nil _ (by decide)]; rfl
  | network _ _ hbefore => exact hbefore.ends.getLast?

/-- No occurrence goes on behind the place, if the sign has its end only at its end. -/
lemma Place.clear_before {s : List Char} (hs : '>' ∉ s.dropLast)
    (h : Place model clock before declaration) (hbefore : ¬ s <:+: before) : Clear s before := by
  obtain ⟨pre, rfl⟩ := List.getLast?_eq_some_iff.1 h.getLast?
  exact clear_concat hs hbefore

lemma Place.clear_declaration (hword : ∀ c ∈ clock.toList, isWord c = true)
    (h : Place model clock before declaration) :
    Clear "<system>".toList declaration ∧ Clear "<template>".toList declaration := by
  have hclear (pre post : String)
      (hpre : Clear "<system>".toList pre.toList ∧ Clear "<template>".toList pre.toList)
      (hpost : Clear "<system>".toList post.toList ∧ Clear "<template>".toList post.toList) :
      Clear "<system>".toList (pre ++ clock ++ post).toList ∧
        Clear "<template>".toList (pre ++ clock ++ post).toList := by
    have hclock := lt_not_mem hword
    simp only [String.toList_append]
    exact ⟨.append (.append hpre.1 (clear_of_not_mem hclock _)) hpost.1,
      .append (.append hpre.2 (clear_of_not_mem hclock _)) hpost.2⟩
  cases h with
  | declarations _ _ => exact hclear "\nclock " ";\n" (by decide) (by decide)
  | network _ _ _ =>
    exact hclear "\n<declaration>clock " ";</declaration>" (by decide) (by decide)

/-- The declaration of the clock brings no `<system>` about. -/
lemma Place.not_infix_system (hword : ∀ c ∈ clock.toList, isWord c = true)
    (h : Place model clock before declaration)
    (hhead : ¬ "<system>".toList <:+: before ++ between) :
    ¬ "<system>".toList <:+: before ++ declaration ++ between := by
  have hbefore : Clear "<system>".toList before :=
    h.clear_before (by decide) fun hoccurs => hhead (hoccurs.trans (List.infix_append' [] _ _))
  rw [List.append_assoc, hbefore.infix_append_iff, (h.clear_declaration hword).1.infix_append_iff]
  exact fun hoccurs => hhead (hoccurs.trans (List.suffix_append _ _).isInfix)

/-- Where the clock is declared before the first template, this declaration is found. -/
lemma Place.declared_outcome (hne : clock.toList ≠ []) (hword : ∀ c ∈ clock.toList, isWord c = true)
    (h : Place model clock before declaration) (c : Cut model) (htemplates : p.templates ≠ [])
    (hhead : c.head = before ++ between) (hglobals : before <+: globals model) :
    Declared (before ++ declaration ++ between ++ c.behind p.templates) clock := by
  have hsystem := h.not_infix_system hword (hhead ▸ c.first)
  have hbefore : Clear "<template>".toList before :=
    h.clear_before (by decide) fun hoccurs =>
      not_infix_beforeFirst (by decide) _ (hoccurs.trans hglobals.isInfix)
  have hout : globals (before ++ declaration ++ between ++ c.behind p.templates) =
      before ++ (declaration ++ beforeFirst "<template>".toList between) := by
    rw [globals_outcome c htemplates hsystem, List.append_assoc, hbefore.beforeFirst_append,
      (h.clear_declaration hword).2.beforeFirst_append]
  cases h with
  | declarations hmodel hnone =>
    -- the declaration stands on its own line behind the tag that opens the section
    refine ⟨_, _, hout.trans (List.append_assoc _ _ _), hnone, ?_⟩
    rw [toList_declaration]
    simpa only [List.append_assoc, List.cons_append, List.nil_append] using
      declares_word ['\n'] ('\n' :: beforeFirst "<template>".toList between) hne hword
        (by rintro c ⟨⟩; decide)
  | network hnone _ _ =>
    -- the model had no section, so the one inserted is the first
    have hline : ¬ "<declaration>".toList <:+: before ++ ['\n'] :=
      not_infix_append (fun hoccurs => hnone (hoccurs.trans hglobals.isInfix)) (by decide)
        (by rintro c ⟨⟩; decide)
    refine ⟨before ++ ['\n'], _, ?_, hline, declares_word []
      ("</declaration>".toList ++ beforeFirst "<template>".toList between) hne hword nofun⟩
    rw [hout, toList_declarations]
    simp only [List.append_assoc, List.cons_append, List.nil_append]

/-! ### Instrumenting a model once -/

/-- If the model has a `<system>`, its first tag of the network ends before the first template and
the `<system>`, or no tag of the network begins before the `<system>`. -/
def Ready (model : List Char) : Prop :=
  "<system>".toList <:+: model →
    (∃ before, EndsFirstTag before ∧ before <+: globals model) ∨
      ∀ d, Opens d → ¬ "<nta".toList ++ [d] <:+: beforeFirst "<system>".toList model

/-- A tag of the network that begins before the `<system>` ends in the model. -/
lemma ready_of_first
    (h : ∀ before, before <+: model → EndsFirstTag before → before <+: globals model) :
    Ready model := by
  intro hsystem
  obtain ⟨head, tail, hcut⟩ := exists_cutFirst? hsystem
  obtain ⟨rfl, hhead⟩ := (cutFirst?_eq_some_iff (by decide) (by decide)).1 hcut
  cases hnetwork : cutNetwork? (head ++ ("<system>".toList ++ tail)) with
  | some parts =>
    obtain ⟨hmodel, hfirst⟩ := cutNetwork?_eq_some_iff.1 hnetwork
    exact .inl ⟨_, hfirst, h _ ⟨_, hmodel.symm⟩ hfirst⟩
  | none =>
    refine .inr fun d hd hoccurs => ?_
    rw [beforeFirst_append (by decide) (by decide) hhead] at hoccurs
    obtain ⟨pre, hpre, hends⟩ := exists_endsInTag hd hoccurs
      (List.mem_append_left tail (show '>' ∈ "<system>".toList by decide))
    exact cutNetwork?_eq_none_iff.1 hnetwork pre hpre hends

lemma Cut.infix_system (c : Cut model) : "<system>".toList <:+: model := by
  rw [c.append]
  exact c.opened.isInfix.trans ((List.prefix_append _ _).isInfix.trans
    (List.suffix_append _ _).isInfix)

/-- The clock is declared before the first template. -/
lemma Place.prefix_globals (hready : Ready model) (c : Cut model)
    (h : Place model clock before declaration) (hhead : c.head = before ++ between) :
    before <+: globals model := by
  cases h with
  | declarations hmodel _ => exact ⟨_, (List.append_assoc _ _ _).trans hmodel.symm⟩
  | network _ hmodel hfirst =>
    rcases hready c.infix_system with ⟨before', hfirst', hglobals⟩ | hnone
    · rwa [hfirst.unique hfirst' ⟨_, hmodel.symm⟩ (hglobals.trans
        (c.globals_isPrefix.trans c.head_isPrefix))]
    · obtain ⟨d, hd, hoccurs⟩ := hfirst.ends.exists_opens
      rw [← c.head_eq, hhead] at hnone
      exact absurd (hoccurs.trans (List.prefix_append _ _).isInfix) (hnone d hd)

section Templates

variable (c : Cut model) (h : p.templates ≠ [])
include h

lemma globals_templates : globals (c.head ++ c.behind p.templates) = globals model := by
  rw [globals_outcome c h c.first, c.globals_eq]

/-- The templates bring no tag of the network about. -/
lemma ready_templates (hready : Ready model) : Ready (c.head ++ c.behind p.templates) := by
  intro _
  rw [globals_templates c h, ← (c.again h c.first).head_eq]
  refine (hready c.infix_system).imp id fun hnone d hd => ?_
  rw [← c.head_eq] at hnone
  refine not_infix_append (hnone d hd) (fun hoccurs => ?_) ?_
  · exact (inert_templateText p).2.not_isInfix (by decide)
      ((List.prefix_append _ _).isInfix.trans hoccurs)
  · rw [head?_templateText h]
    rintro c ⟨⟩ hmem
    rcases List.mem_append.1 (show '<' ∈ "nta".toList ++ [d] from hmem) with hmem | hmem
    · exact absurd hmem (by decide)
    · obtain rfl := List.mem_singleton.1 hmem
      exact hd.elim (by decide) (by decide)

end Templates

/-- A clock that has been declared is not declared again. -/
lemma Inserted.of_declared (h : Inserted p model declaration out)
    (hdeclared : Declared model p.clock) : declaration = [] ∧ Declared out p.clock := by
  cases h with
  | nothing _ => exact ⟨rfl, hdeclared⟩
  | templates c h _ =>
    refine ⟨rfl, ?_⟩
    rwa [Declared, globals_templates c h]
  | declaration c _ hneeds _ _ => exact absurd hdeclared hneeds.2

/-- A clock that has not been declared is declared with the first signal. -/
lemma Inserted.of_not_declared (hne : p.clock.toList ≠ [])
    (hword : ∀ c ∈ p.clock.toList, isWord c = true) (hready : Ready model)
    (h : Inserted p model declaration out) (hdeclared : ¬ Declared model p.clock) :
    (declaration = [] ∧ ¬ p.HasSignal ∧ Ready out) ∨ Declared out p.clock := by
  cases h with
  | nothing h => exact .inl ⟨rfl, fun hsignal => hsignal.templates_ne_nil h, hready⟩
  | templates c h hneeds =>
    exact .inl ⟨rfl, fun hsignal => hneeds ⟨hsignal, hdeclared⟩, ready_templates c h hready⟩
  | declaration c h _ hplace hhead =>
    exact .inr (hplace.declared_outcome hne hword c h hhead (hplace.prefix_globals hready c hhead))

/-! ### Instrumenting a model again and again -/

/-- Instrument a model several times, as long as this succeeds. -/
def instrumentAll (model : List Char) : List Instrumentation → Outcome
  | [] => .text model
  | p :: ps =>
    match instrumentChars model p with
    | .text middle => instrumentAll middle ps
    | failed => failed

/-- The declarations that are put into a model when it is instrumented several times, one for each
time, which is empty if there is none. -/
inductive InsertedAll :
    List Char → List Instrumentation → List (List Char) → List Char → Prop
  | nil (model : List Char) : InsertedAll model [] [] model
  | cons {model middle out declaration : List Char} {p : Instrumentation}
      {ps : List Instrumentation} {declarations : List (List Char)} :
    Inserted p model declaration middle → InsertedAll middle ps declarations out →
      InsertedAll model (p :: ps) (declaration :: declarations) out

variable {ps : List Instrumentation} {declarations : List (List Char)}

/-- A model in which the clock has been declared can be instrumented again and again. -/
lemma exists_instrumentAll (c : Cut model) (hclock : ∀ p ∈ ps, p.clock = clock)
    (hdeclared : Declared model clock) : ∃ out, instrumentAll model ps = .text out := by
  induction ps generalizing model with
  | nil => exact ⟨model, rfl⟩
  | cons p ps ih =>
    obtain ⟨rfl, hps⟩ := List.forall_mem_cons.1 hclock
    by_cases h : p.templates = []
    · rw [instrumentAll, instrumentChars_of_templates_eq_nil h]
      exact ih c hps hdeclared
    · have hinserted := Inserted.templates c h fun hneeds => hneeds.2 hdeclared
      rw [instrumentAll, instrumentChars_eq_text_iff.2 ⟨[], hinserted⟩]
      exact ih (c.again h c.first) hps (hinserted.of_declared hdeclared).2

lemma exists_insertedAll (h : instrumentAll model ps = .text out) :
    ∃ declarations, InsertedAll model ps declarations out := by
  induction ps generalizing model with
  | nil =>
    cases h
    exact ⟨[], .nil _⟩
  | cons p ps ih =>
    rw [instrumentAll] at h
    cases hmiddle : instrumentChars model p with
    | text middle =>
      rw [hmiddle] at h
      obtain ⟨declaration, hinserted⟩ := instrumentChars_eq_text_iff.1 hmiddle
      obtain ⟨declarations, hall⟩ := ih h
      exact ⟨declaration :: declarations, .cons hinserted hall⟩
    | refused why =>
      rw [hmiddle] at h
      cases h
    | crossed =>
      rw [hmiddle] at h
      cases h

lemma InsertedAll.of_declared (h : InsertedAll model ps declarations out)
    (hclock : ∀ p ∈ ps, p.clock = clock) (hdeclared : Declared model clock) :
    (∀ declaration ∈ declarations, declaration = []) ∧ Declared out clock := by
  induction h with
  | nil model => exact ⟨List.forall_mem_nil _, hdeclared⟩
  | cons hinserted _ ih =>
    obtain ⟨rfl, hps⟩ := List.forall_mem_cons.1 hclock
    obtain ⟨rfl, hmiddle⟩ := hinserted.of_declared hdeclared
    obtain ⟨hall, hout⟩ := ih hps hmiddle
    exact ⟨List.forall_mem_cons.2 ⟨rfl, hall⟩, hout⟩

lemma filter_eq_nil (h : ∀ declaration ∈ declarations, declaration = []) :
    declarations.filter (· ≠ []) = [] :=
  List.filter_eq_nil_iff.2 fun declaration hmem => by simpa using h declaration hmem

/-- Until the clock is declared the model stays ready, and from then on nothing is declared. -/
lemma InsertedAll.of_ready (hne : clock.toList ≠ []) (hword : ∀ c ∈ clock.toList, isWord c = true)
    (h : InsertedAll model ps declarations out) (hclock : ∀ p ∈ ps, p.clock = clock)
    (hready : Ready model) :
    (declarations.filter (· ≠ [])).length ≤ 1 ∧
      ((∃ p ∈ ps, p.HasSignal) → Declared out clock) := by
  induction h with
  | nil model => exact ⟨Nat.zero_le 1, fun ⟨p, hp, _⟩ => absurd hp List.not_mem_nil⟩
  | @cons model middle out declaration p ps declarations hinserted hrest ih =>
    by_cases hdeclared : Declared model clock
    · -- declared already, so no instrumentation inserts anything
      obtain ⟨hall, hout⟩ := (InsertedAll.cons hinserted hrest).of_declared hclock hdeclared
      rw [filter_eq_nil hall]
      exact ⟨Nat.zero_le 1, fun _ => hout⟩
    · obtain ⟨rfl, hps⟩ := List.forall_mem_cons.1 hclock
      rcases hinserted.of_not_declared hne hword hready hdeclared with
        ⟨rfl, hsignal, hmiddle⟩ | hmiddle
      · -- the first instrumentation has no signals, and the clock is left to the others
        obtain ⟨hone, hout⟩ := ih hps hmiddle
        refine ⟨hone, fun ⟨q, hq, hqSignal⟩ => hout ?_⟩
        rcases List.mem_cons.1 hq with rfl | hq
        · exact absurd hqSignal hsignal
        · exact ⟨q, hq, hqSignal⟩
      · -- the first instrumentation declares the clock, and then the others insert nothing
        obtain ⟨hall, hout⟩ := hrest.of_declared hps hmiddle
        refine ⟨?_, fun _ => hout⟩
        calc ((declaration :: declarations).filter (· ≠ [])).length
          _ = ([declaration].filter (· ≠ []) ++ declarations.filter (· ≠ [])).length := by
            rw [← List.filter_append, List.singleton_append]
          _ = ([declaration].filter (· ≠ [])).length := by
            rw [filter_eq_nil hall, List.append_nil]
          _ ≤ 1 := List.length_filter_le _ _

/-- A text that ends before the first template and the first `<system>` is one of those before both
of them. -/
lemma prefix_globals_of_length_le (hinitial : before <+: model)
    (htemplate : before.length ≤ (beforeFirst "<template>".toList model).length)
    (hsystem : before.length ≤ (beforeFirst "<system>".toList model).length) :
    before <+: globals model := by
  have hhead := beforeFirst_isPrefix "<system>".toList model
  rw [globals]
  by_cases hoccurs : "<template>".toList <:+: beforeFirst "<system>".toList model
  · rw [← beforeFirst_of_isPrefix (by decide) (by decide) hhead hoccurs]
    exact List.prefix_of_prefix_length_le hinitial (beforeFirst_isPrefix _ _) htemplate
  · rw [beforeFirst_eq_self hoccurs]
    exact List.prefix_of_prefix_length_le hinitial hhead hsystem

/-- Let a model be instrumented any number of times over the same clock, which is a word, and let
its first tag of the network, if it has one, end before its first template and its first `<system>`.
Then the clock is declared at most once, and after the first signal the declarations before the
first template declare it. -/
theorem declared_once (hne : clock ≠ "") (hword : ∀ c ∈ clock.toList, isWord c = true)
    (hnetwork : ∀ before, before <+: model → EndsFirstTag before →
      before.length ≤ (beforeFirst "<template>".toList model).length ∧
        before.length ≤ (beforeFirst "<system>".toList model).length)
    (hclock : ∀ p ∈ ps, p.clock = clock) (hout : instrumentAll model ps = .text out) :
    (∃ declarations, InsertedAll model ps declarations out) ∧
      (∀ declarations, InsertedAll model ps declarations out →
        (declarations.filter (· ≠ [])).length ≤ 1) ∧
      ((∃ p ∈ ps, p.HasSignal) → ∃ before declarations,
        cutFirst? "<declaration>".toList (globals out) = some (before, declarations) ∧
          declaresClock declarations clock.toList = true) := by
  have hne : clock.toList ≠ [] := by simpa using hne
  have hready : Ready model := ready_of_first fun before hinitial hfirst =>
    prefix_globals_of_length_le hinitial (hnetwork before hinitial hfirst).1
      (hnetwork before hinitial hfirst).2
  obtain ⟨declarations, hall⟩ := exists_insertedAll hout
  refine ⟨⟨declarations, hall⟩, fun _ hall => (hall.of_ready hne hword hclock hready).1,
    fun hsignal => ?_⟩
  obtain ⟨before, declarations, hglobals, hbefore, hdeclares⟩ :=
    (hall.of_ready hne hword hclock hready).2 hsignal
  exact ⟨before, declarations,
    (cutFirst?_eq_some_iff (by decide) (by decide)).2 ⟨hglobals, hbefore⟩,
    declaresClock_eq_true_iff.2 hdeclares⟩

/-! ### A model that is instrumented three times -/

namespace Sample

def network : List Char :=
  "<nta><template><name>P</name></template><system>system P;</system></nta>".toList

/-- A pattern is ruled out. -/
def monitored : Instrumentation where
  clock := "x"
  excluded := [["ack"]]
  exclusionAlphabet := ["ack", "nack"]

/-- A signal is observed. -/
def observed : Instrumentation where
  clock := "x"
  observed := some ⟨[⟨"ack", -1, 5⟩]⟩

def cut : Cut network where
  head := "<nta><template><name>P</name></template>".toList
  line := "<system>system P".toList
  tail := ";".toList
  after := "</nta>".toList
  append := by decide
  first := by decide
  opened := by decide
  closed := by decide
  last := (cutSystem?_eq_some_iff.1 (by decide : cutSystem? true 0 "<system>system P;".toList =
    some ("<system>system P".toList, ";".toList))).2

lemma endsFirstTag_nta : EndsFirstTag "<nta>".toList :=
  NetworkTag.endsFirstTag ⟨[], rfl, List.not_mem_nil, nofun⟩

/-- The clock is declared when the signal is observed, behind the tag of the network. -/
lemma exists_instrumentAll_network :
    ∃ out, instrumentAll network [monitored, observed, observed] = .text out := by
  have hmonitored : monitored.templates ≠ [] := by decide
  have hobserved : observed.templates ≠ [] := by decide
  -- the first instrumentation only listens: no clock is declared
  have hfirst : Inserted monitored network [] (cut.head ++ cut.behind monitored.templates) :=
    .templates cut hmonitored fun hneeds => absurd hneeds.1 (by decide)
  have hglobals : globals (cut.head ++ cut.behind monitored.templates) = "<nta>".toList := by
    rw [globals_templates cut hmonitored]
    decide
  have hnone : ¬ "<declaration>".toList <:+:
      globals (cut.head ++ cut.behind monitored.templates) := by
    rw [hglobals]
    decide
  have hcut (behind : List Char) : cut.head ++ behind =
      "<nta>".toList ++ ("<template><name>P</name></template>".toList ++ behind) :=
    List.append_assoc "<nta>".toList _ behind
  have hplace : Place _ observed.clock "<nta>".toList _ :=
    .network hnone (hcut (cut.behind monitored.templates)) endsFirstTag_nta
  have hword : ∀ c ∈ observed.clock.toList, isWord c = true := List.all_eq_true.1 (by decide)
  let again : Cut (cut.head ++ cut.behind monitored.templates) := cut.again hmonitored cut.first
  have hhead := hcut (templateText monitored.templates)
  -- the second one has a signal and declares the clock, which the third finds declared
  have hsecond := Inserted.declaration again hobserved ⟨.inr rfl, not_declared hnone⟩ hplace hhead
  have hdeclared := hplace.declared_outcome (by decide) hword again hobserved hhead
    (hglobals ▸ List.prefix_refl _)
  rw [instrumentAll, instrumentChars_eq_text_iff.2 ⟨_, hfirst⟩]
  dsimp only
  rw [instrumentAll, instrumentChars_eq_text_iff.2 ⟨_, hsecond⟩]
  exact exists_instrumentAll (again.again hobserved (hplace.not_infix_system hword
    (hhead ▸ again.first))) (List.forall_mem_singleton.2 rfl) hdeclared

/-- A pattern is ruled out, and then a signal is observed twice. -/
theorem declared_once_sample :
    ∃ out, instrumentAll network [monitored, observed, observed] = .text out ∧
      (∃ declarations, InsertedAll network [monitored, observed, observed] declarations out) ∧
      (∀ declarations, InsertedAll network [monitored, observed, observed] declarations out →
        (declarations.filter (· ≠ [])).length ≤ 1) ∧
      ∃ before declarations,
        cutFirst? "<declaration>".toList (globals out) = some (before, declarations) ∧
          declaresClock declarations "x".toList = true := by
  have hword : ∀ c ∈ "x".toList, isWord c = true := List.all_eq_true.1 (by decide)
  have hnetwork : ∀ before, before <+: network → EndsFirstTag before →
      before.length ≤ (beforeFirst "<template>".toList network).length ∧
        before.length ≤ (beforeFirst "<system>".toList network).length := by
    intro before hinitial hfirst
    obtain rfl := hfirst.unique endsFirstTag_nta hinitial ⟨_, rfl⟩
    decide
  have hclock : ∀ p ∈ [monitored, observed, observed], p.clock = "x" := by decide
  obtain ⟨out, hout⟩ := exists_instrumentAll_network
  obtain ⟨hexists, hone, hdeclared⟩ := declared_once (by decide) hword hnetwork hclock hout
  exact ⟨out, hout, hexists, hone, hdeclared ⟨observed, by decide, .inr rfl⟩⟩

end Sample

end TimedPatterns.Model
