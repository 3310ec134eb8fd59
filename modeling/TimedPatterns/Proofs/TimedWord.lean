import TimedPatterns.Proofs.Table
import TimedPatterns.Proofs.Text.Json
import TimedPatterns.Proofs.Trace

/-!
# The columns of a timed word

However a word is built, its three columns are of one length, and they are the ones that it was
built from: nothing is left out where the columns are put together. So the views of the word have
one entry for each label.

The JSON form of a word is read as the word again, and no other word is written in the same way. An
object with the three columns is read unless one of the columns of bounds is longer or shorter than
that of the labels, and the lower bounds are looked at first.
-/

namespace TimedPatterns

variable {w w' : TimedWord} {actions : List String} {lb ub : List Int}
  {lower upper : Option (List Int)}

namespace TimedWord

/-! ### Columns -/

/-- The bounds of a column; without one, nothing is bounded. -/
def columnOf (expected : Nat) (bounds : Option (List Int)) : List Int :=
  bounds.getD (List.replicate expected unbounded)

lemma boundColumn_eq (side : Side) (expected : Nat) (bounds : Option (List Int)) :
    boundColumn side expected bounds =
      if (columnOf expected bounds).length = expected then .ok (columnOf expected bounds)
      else .error ⟨side, expected, (columnOf expected bounds).length⟩ := by
  cases bounds with
  | none => simp [boundColumn, columnOf]
  | some bounds => rfl

/-- The steps of a word are put together from its columns. -/
lemma zip_columns (w : TimedWord) :
    List.zipWith (fun action b => ⟨action, b.1, b.2⟩) w.actions (w.lowers.zip w.uppers) =
      w.steps := by
  rw [actions, lowers, uppers, List.zip_map', List.zipWith_map, List.zipWith_self]
  exact List.map_id _

lemma eq_of_columns (hactions : w.actions = w'.actions) (hlowers : w.lowers = w'.lowers)
    (huppers : w.uppers = w'.uppers) : w = w' := by
  have hsteps := w.zip_columns
  rw [hactions, hlowers, huppers, zip_columns] at hsteps
  cases w
  cases w'
  exact congrArg mk hsteps.symm

/-- The word that is put together from columns. -/
def zipped (actions : List String) (lb ub : List Int) : TimedWord :=
  ⟨List.zipWith (fun action b => ⟨action, b.1, b.2⟩) actions (lb.zip ub)⟩

/-- Of columns of one length, nothing is left out. -/
lemma columns_zipped (hlower : lb.length = actions.length) (hupper : ub.length = actions.length) :
    (zipped actions lb ub).actions = actions ∧ (zipped actions lb ub).lowers = lb ∧
      (zipped actions lb ub).uppers = ub := by
  induction actions generalizing lb ub with
  | nil =>
    obtain rfl := List.length_eq_zero_iff.1 hlower
    obtain rfl := List.length_eq_zero_iff.1 hupper
    exact ⟨rfl, rfl, rfl⟩
  | cons action actions ih =>
    obtain ⟨l, lb, rfl⟩ := List.exists_cons_of_length_eq_add_one hlower
    obtain ⟨u, ub, rfl⟩ := List.exists_cons_of_length_eq_add_one hupper
    obtain ⟨hactions, hlowers, huppers⟩ := ih (Nat.succ.inj hlower) (Nat.succ.inj hupper)
    exact ⟨congrArg (action :: ·) hactions, congrArg (l :: ·) hlowers, congrArg (u :: ·) huppers⟩

/-- What comes of building a word. The lower bounds are looked at first. -/
lemma ofColumns_eq (actions : List String) (lower upper : Option (List Int)) :
    ofColumns actions lower upper =
      if (columnOf actions.length lower).length ≠ actions.length then
        .error ⟨.lower, actions.length, (columnOf actions.length lower).length⟩
      else if (columnOf actions.length upper).length ≠ actions.length then
        .error ⟨.upper, actions.length, (columnOf actions.length upper).length⟩
      else .ok (zipped actions (columnOf actions.length lower) (columnOf actions.length upper)) := by
  rw [ofColumns, boundColumn_eq, boundColumn_eq]
  simp only [ne_eq, ite_not]
  split_ifs <;> rfl

/-- A word is built from columns of one length, and these are its columns. -/
lemma ofColumns_eq_ok_iff : ofColumns actions lower upper = .ok w ↔
    w.actions = actions ∧ w.lowers = columnOf actions.length lower ∧
      w.uppers = columnOf actions.length upper := by
  have hlengths : w.lowers.length = w.actions.length ∧ w.uppers.length = w.actions.length := by
    simp
  rw [ofColumns_eq]
  split_ifs with hlower hupper
  · refine iff_of_false nofun ?_
    rintro ⟨rfl, heq, -⟩
    exact hlower (heq ▸ hlengths.1)
  · refine iff_of_false nofun ?_
    rintro ⟨rfl, -, heq⟩
    exact hupper (heq ▸ hlengths.2)
  · obtain ⟨hactions, hlowers, huppers⟩ := columns_zipped (not_not.1 hlower) (not_not.1 hupper)
    constructor
    · rintro ⟨⟩
      exact ⟨hactions, hlowers, huppers⟩
    · rintro ⟨hactions', hlowers', huppers'⟩
      exact congrArg _ (eq_of_columns (hactions.trans hactions'.symm)
        (hlowers.trans hlowers'.symm) (huppers.trans huppers'.symm))

/-! ### JSON values -/

/-- A number of 64 bits. -/
def IsSigned (b : Int) : Prop := Text.minSigned ≤ b ∧ b ≤ Text.maxSigned

/-- An object has one field of each of the three names, with labels and with bounds of 64 bits.
Other fields may stand between them. -/
structure HasColumns (fields : List (String × Json)) (actions : List String) (lb ub : List Int) :
    Prop where
  actions : fields.filter (·.1 = "actions") = [("actions", .texts actions)]
  lower : fields.filter (·.1 = "lb") = [("lb", .ints lb)]
  upper : fields.filter (·.1 = "ub") = [("ub", .ints ub)]
  signed : ∀ b ∈ lb ++ ub, IsSigned b

lemma asSigned?_eq_some_iff {v : Json} {b : Int} :
    Json.asSigned? v = some b ↔ v = .int b ∧ IsSigned b := by
  unfold Json.asSigned?
  split
  · next digits =>
    split_ifs with hrange
    · rw [Option.some.injEq]
      constructor
      · rintro rfl
        exact ⟨rfl, hrange⟩
      · rintro ⟨⟨⟩, -⟩
        rfl
    · refine iff_of_false nofun ?_
      rintro ⟨⟨⟩, h⟩
      exact hrange h
  · next hother =>
    refine iff_of_false nofun ?_
    rintro ⟨rfl, -⟩
    exact hother b rfl

/-- A list whose items are read one by one. -/
lemma asList?_map {α : Type} {item : α → Json} {item? : Json → Option α} {xs : List α}
    (h : ∀ x ∈ xs, item? (item x) = some x) :
    Json.asList? item? (.array (xs.map item)) = some xs := by
  show (xs.map item).mapM item? = some xs
  induction xs with
  | nil => rfl
  | cons x xs ih =>
    obtain ⟨hx, hxs⟩ := List.forall_mem_cons.1 h
    rw [List.map_cons, List.mapM_cons, hx, ih hxs]
    rfl

lemma mem_of_asList? {v : Json} {bs : List Int} (h : Json.asList? Json.asSigned? v = some bs) :
    ∀ b ∈ bs, IsSigned b := by
  cases v with
  | array items =>
    have hmap : items.mapM Json.asSigned? = some bs := h
    induction items generalizing bs with
    | nil =>
      cases hmap
      exact nofun
    | cons v items ih =>
      rw [List.mapM_cons] at hmap
      obtain ⟨b, hb, hmap⟩ := Option.bind_eq_some_iff.1 hmap
      obtain ⟨rest, hrest, ⟨⟩⟩ := Option.bind_eq_some_iff.1 hmap
      exact List.forall_mem_cons.2 ⟨(asSigned?_eq_some_iff.1 hb).2, ih hrest hrest⟩
  | _ => cases h

/-- The columns of an object that has them are read. -/
lemma HasColumns.columnsOfJson? {fields : List (String × Json)}
    (h : HasColumns fields actions lb ub) :
    TimedWord.columnsOfJson? (.object fields) = some (actions, lb, ub) := by
  obtain ⟨hlower, hupper⟩ := List.forall_mem_append.1 h.signed
  have hactions : Json.asList? Json.asText? (.texts actions) = some actions :=
    asList?_map fun _ _ => rfl
  have hlowers : Json.asList? Json.asSigned? (.ints lb) = some lb :=
    asList?_map fun b hb => asSigned?_eq_some_iff.2 ⟨rfl, hlower b hb⟩
  have huppers : Json.asList? Json.asSigned? (.ints ub) = some ub :=
    asList?_map fun b hb => asSigned?_eq_some_iff.2 ⟨rfl, hupper b hb⟩
  simp [TimedWord.columnsOfJson?, Json.field?, h.actions, h.lower, h.upper, readColumns, hactions,
    hlowers, huppers]

lemma ofJson_of_columns {value : Json} (h : columnsOfJson? value = some (actions, lb, ub)) :
    ofJson value = (ofColumns actions (some lb) (some ub)).mapError .shape := by
  rw [ofJson, h]

/-- What comes of reading an object with the three columns. -/
lemma HasColumns.ofJson_eq {fields : List (String × Json)} (h : HasColumns fields actions lb ub) :
    ofJson (.object fields) =
      if lb.length ≠ actions.length then .error (.shape ⟨.lower, actions.length, lb.length⟩)
      else if ub.length ≠ actions.length then .error (.shape ⟨.upper, actions.length, ub.length⟩)
      else .ok (zipped actions lb ub) := by
  rw [ofJson_of_columns h.columnsOfJson?, ofColumns_eq]
  by_cases hlower : lb.length = actions.length
  · by_cases hupper : ub.length = actions.length <;>
      simp [columnOf, hlower, hupper, Except.mapError]
  · simp [columnOf, hlower, Except.mapError]

lemma signed_of_columnsOfJson? {value : Json} (h : columnsOfJson? value = some (actions, lb, ub)) :
    ∀ b ∈ lb ++ ub, IsSigned b := by
  have hread {a l u : Json} (h : readColumns a l u = some (actions, lb, ub)) :
      ∀ b ∈ lb ++ ub, IsSigned b := by
    simp only [readColumns, Option.bind_eq_bind, Option.bind_eq_some_iff] at h
    obtain ⟨_, -, _, hlower, _, hupper, ⟨⟩⟩ := h
    exact List.forall_mem_append.2 ⟨mem_of_asList? hlower, mem_of_asList? hupper⟩
  unfold columnsOfJson? at h
  split at h
  · simp only [Option.bind_eq_bind, Option.bind_eq_some_iff] at h
    obtain ⟨_, -, _, -, _, -, h⟩ := h
    exact hread h
  · exact hread h
  · cases h

/-- The JSON form of a word is read as the word. -/
lemma ofJson_toJson (hsigned : ∀ b ∈ w.lowers ++ w.uppers, IsSigned b) :
    ofJson w.toJson = .ok w := by
  have hcolumns : HasColumns [("actions", .texts w.actions), ("lb", .ints w.lowers),
      ("ub", .ints w.uppers)] w.actions w.lowers w.uppers := ⟨rfl, rfl, rfl, hsigned⟩
  have hword : ofColumns w.actions (some w.lowers) (some w.uppers) = .ok w :=
    ofColumns_eq_ok_iff.2 ⟨rfl, rfl, rfl⟩
  rw [toJson, ofJson_of_columns hcolumns.columnsOfJson?, hword]
  rfl

/-- What is written of a word, with its columns between the other parts. -/
lemma toList_render_toJson (w : TimedWord) : w.toJson.render.toList =
    ("\x7b" ++ Json.renderText "actions" ++ ":").toList ++ ((Json.texts w.actions).render.toList ++
      (("," ++ Json.renderText "lb" ++ ":").toList ++ ((Json.ints w.lowers).render.toList ++
        (("," ++ Json.renderText "ub" ++ ":").toList ++ ((Json.ints w.uppers).render.toList ++
          "\x7d".toList))))) := by
  simp only [toJson, Json.render, Json.renderFields, String.toList_append, List.append_assoc]

/-- Words that are written in the same way are the same. -/
lemma eq_of_render_toJson (h : w.toJson.render = w'.toJson.render) : w = w' := by
  have hchars := congrArg String.toList h
  rw [toList_render_toJson, toList_render_toJson] at hchars
  obtain ⟨hactions, hchars⟩ :=
    Json.render_array_inj Json.separable_text (List.append_cancel_left hchars)
  obtain ⟨hlowers, hchars⟩ :=
    Json.render_array_inj Json.separable_int (List.append_cancel_left hchars)
  obtain ⟨huppers, -⟩ := Json.render_array_inj Json.separable_int (List.append_cancel_left hchars)
  exact eq_of_columns hactions hlowers huppers

/-! ### Words without bounds -/

/-- Nothing is bounded in a word without bounds. -/
lemma isUntimed_iff : w.isUntimed = true ↔
    ∀ s ∈ w.steps, s.lower = unbounded ∧ s.upper = unbounded := by
  simp only [isUntimed, lowers, uppers, List.all_append, List.all_map, Bool.and_eq_true,
    List.all_eq_true, Function.comp_apply, beq_iff_eq]
  exact forall₂_and.symm

/-- A word without bounds is the one of its labels. -/
lemma isUntimed_iff_eq : w.isUntimed = true ↔ w = untimed w.actions := by
  rw [isUntimed_iff]
  constructor
  · intro h
    refine eq_of_columns (actions_untimed _).symm ?_ ?_
    · simp only [lowers, untimed, actions, List.map_map]
      exact List.map_congr_left fun s hs => (h s hs).1
    · simp only [uppers, untimed, actions, List.map_map]
      exact List.map_congr_left fun s hs => (h s hs).2
  · intro h s hs
    rw [h, untimed] at hs
    obtain ⟨action, -, rfl⟩ := List.mem_map.1 hs
    exact ⟨rfl, rfl⟩

/-! ### Words that are built -/

/-- A word is built from columns of labels and of bounds of 64 bits: from given ones, where bounds
may be missing; from labels only; from a JSON value; or from a trace. -/
inductive Built : List String → List Int → List Int → TimedWord → Prop
  | columns {actions : List String} {lower upper : Option (List Int)} {w : TimedWord}
      (hlower : ∀ b ∈ lower.getD [], IsSigned b) (hupper : ∀ b ∈ upper.getD [], IsSigned b)
      (h : ofColumns actions lower upper = .ok w) :
      Built actions (columnOf actions.length lower) (columnOf actions.length upper) w
  | untimed (actions : List String) :
      Built actions (List.replicate actions.length unbounded)
        (List.replicate actions.length unbounded) (untimed actions)
  | json {value : Json} {actions : List String} {lb ub : List Int} {w : TimedWord}
      (hcolumns : columnsOfJson? value = some (actions, lb, ub)) (h : ofJson value = .ok w) :
      Built actions lb ub w
  | trace (t : Trace) (hsigned : ∀ b ∈ t.lowers ++ t.uppers, IsSigned b) :
      Built t.actions t.lowers t.uppers t.toTimedWord

/-- A word has just these columns, which are of one length, and so are its views, each of which has
the entries of the columns side by side. -/
structure MadeOf (actions : List String) (lb ub : List Int) (w : TimedWord) : Prop where
  length_lb : lb.length = actions.length
  length_ub : ub.length = actions.length
  actions_eq : w.actions = actions
  lowers_eq : w.lowers = lb
  uppers_eq : w.uppers = ub
  length_eq : w.length = actions.length
  guarded_eq : ∀ clock, w.guarded clock = List.zipWith
    (fun action b => ⟨action, s!"{clock}>={b.1}", s!"{clock}<={b.2}"⟩) actions (lb.zip ub)
  length_guarded_eq : ∀ clock, (w.guarded clock).length = actions.length
  bounded_eq : w.bounded =
    List.zipWith (fun action b => (action, bound? b.1, bound? b.2)) actions (lb.zip ub)
  length_bounded_eq : w.bounded.length = actions.length

/-- Every word is made of its columns. -/
lemma madeOf_columns (w : TimedWord) : MadeOf w.actions w.lowers w.uppers w where
  length_lb := by simp
  length_ub := by simp
  actions_eq := rfl
  lowers_eq := rfl
  uppers_eq := rfl
  length_eq := by simp
  guarded_eq clock := by
    rw [guarded, ← zip_columns, List.map_zipWith]
  length_guarded_eq clock := by simp
  bounded_eq := by
    rw [bounded, ← zip_columns, List.map_zipWith]
  length_bounded_eq := by simp

/-- The columns that a word is built from are its own, and its bounds have 64 bits. -/
lemma Built.columns_eq (h : Built actions lb ub w) :
    w.actions = actions ∧ w.lowers = lb ∧ w.uppers = ub ∧ ∀ b ∈ lb ++ ub, IsSigned b := by
  have hunbounded (n : Nat) : ∀ b ∈ List.replicate n unbounded, IsSigned b := by
    intro b hb
    rw [List.eq_of_mem_replicate hb]
    exact ⟨by decide, by decide⟩
  have hcolumn (n : Nat) {bounds : Option (List Int)} (h : ∀ b ∈ bounds.getD [], IsSigned b) :
      ∀ b ∈ columnOf n bounds, IsSigned b := by
    cases bounds with
    | none => exact hunbounded n
    | some bounds => exact h
  cases h with
  | columns hlower hupper h =>
    obtain ⟨hactions, hlowers, huppers⟩ := ofColumns_eq_ok_iff.1 h
    exact ⟨hactions, hlowers, huppers,
      List.forall_mem_append.2 ⟨hcolumn _ hlower, hcolumn _ hupper⟩⟩
  | untimed =>
    refine ⟨actions_untimed _, ?_, ?_, List.forall_mem_append.2 ⟨hunbounded _, hunbounded _⟩⟩
    · simp [TimedWord.untimed, lowers, Function.comp_def]
    · simp [TimedWord.untimed, uppers, Function.comp_def]
  | json hcolumns h =>
    rw [ofJson_of_columns hcolumns, mapError_eq_ok_iff] at h
    obtain ⟨hactions, hlowers, huppers⟩ := ofColumns_eq_ok_iff.1 h
    exact ⟨hactions, hlowers, huppers, signed_of_columnsOfJson? hcolumns⟩
  | trace t hsigned =>
    exact ⟨t.actions_toTimedWord, t.lowers_toTimedWord, t.uppers_toTimedWord, hsigned⟩

/-- However a word is built, it is made of the columns that it is built from. It is without bounds
if and only if it is the word of its labels; its JSON form is read as the word again, and no other
word has this form. A trace always makes a word, and an object with the three columns does unless a
column of bounds has another length than that of the labels; the lower bounds are looked at
first. -/
theorem built_exact :
    (∀ actions lb ub w, Built actions lb ub w → MadeOf actions lb ub w ∧
      (w.isUntimed = true ↔ w = untimed w.actions) ∧ ofJson w.toJson = .ok w ∧
      ∀ w' : TimedWord, w'.toJson.render = w.toJson.render → w' = w) ∧
    (∀ t : Trace, ofColumns t.actions (some t.lowers) (some t.uppers) = .ok t.toTimedWord) ∧
    ∀ fields actions lb ub, HasColumns fields actions lb ub →
      ((∃ e, ofJson (.object fields) = .error e) ↔
        lb.length ≠ actions.length ∨ ub.length ≠ actions.length) ∧
      (lb.length ≠ actions.length →
        ofJson (.object fields) = .error (.shape ⟨.lower, actions.length, lb.length⟩)) ∧
      (lb.length = actions.length → ub.length ≠ actions.length →
        ofJson (.object fields) = .error (.shape ⟨.upper, actions.length, ub.length⟩)) := by
  refine ⟨fun actions lb ub w h => ?_, Trace.ofColumns_toTimedWord, ?_⟩
  · obtain ⟨rfl, rfl, rfl, hsigned⟩ := h.columns_eq
    exact ⟨madeOf_columns w, isUntimed_iff_eq, ofJson_toJson hsigned,
      fun w' heq => eq_of_render_toJson heq⟩
  · intro fields actions lb ub h
    rw [h.ofJson_eq]
    by_cases hlower : lb.length = actions.length
    · by_cases hupper : ub.length = actions.length <;> simp [hlower, hupper]
    · simp [hlower]

/-- A word whose second action and all lower bounds are not bounded, and an object with its columns
in another order and of different lengths. -/
theorem built_exact_sample :
    MadeOf ["send", "ack"] [-1, -1] [5, -1] ⟨[⟨"send", -1, 5⟩, ⟨"ack", -1, -1⟩]⟩ ∧
    ofJson (toJson ⟨[⟨"send", -1, 5⟩, ⟨"ack", -1, -1⟩]⟩) =
      .ok ⟨[⟨"send", -1, 5⟩, ⟨"ack", -1, -1⟩]⟩ ∧
    ofJson (.object [("ub", .ints [2]), ("note", .null), ("lb", .ints [0, 1]),
      ("actions", .texts ["a"])]) = .error (.shape ⟨.lower, 1, 2⟩) := by
  obtain ⟨hbuilt, -, hread⟩ := built_exact
  have hlower : ∀ b ∈ (none : Option (List Int)).getD [], IsSigned b := List.forall_mem_nil _
  have hupper : ∀ b ∈ (some [5, -1] : Option (List Int)).getD [], IsSigned b := by
    unfold IsSigned
    decide
  have hword : ofColumns ["send", "ack"] none (some [5, -1]) =
      .ok ⟨[⟨"send", -1, 5⟩, ⟨"ack", -1, -1⟩]⟩ := rfl
  obtain ⟨hmade, -, hjson, -⟩ := hbuilt _ _ _ _ (.columns hlower hupper hword)
  have hcolumns : HasColumns [("ub", .ints [2]), ("note", .null), ("lb", .ints [0, 1]),
      ("actions", .texts ["a"])] ["a"] [0, 1] [2] := by
    refine ⟨rfl, rfl, rfl, ?_⟩
    unfold IsSigned
    decide
  exact ⟨hmade, hjson, (hread _ _ _ _ hcolumns).2.1 (by decide)⟩

end TimedWord

end TimedPatterns
