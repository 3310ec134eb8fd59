import TimedPatterns.Proofs.Witness.Listing

/-!
# The blocks of a listing

The lines of a listing that are not blank form blocks: each heading opens one, and the lines up to
the next heading belong to it. The lines before the first heading are a banner.

A listing is read exactly if its blocks are in order, that is each block of transitions stands
between two states and there is a state, and if what stands in them has the form that it should
have. The witness then has a state for each block `State:` and a move for each block of
transitions, which leads to the state of the next block.

The reader is compared with the blocks that are still to come: for each point that it may have
reached, `Progress.Tells` says what the lines that are left must be to give a certain witness. One
line keeps this (`Progress.tells_cons`), and so do all of them by induction.
-/

namespace TimedPatterns.Listing

open Text

/-! ### Blocks -/

/-- What a heading opens. -/
inductive Heading where
  | state
  | transitions
  deriving DecidableEq, Repr

/-- The heading that a line is. -/
def heading? (line : List Char) : Option Heading :=
  if line = "State:".toList then some .state
  else if line = "Transitions:".toList ∨ line = "Transition:".toList then some .transitions
  else none

/-- A heading and the lines that follow it up to the next one. -/
structure Block where
  heading : Heading
  lines : List (List Char)

/-- The lines before the first heading. -/
def leading (lines : List (List Char)) : List (List Char) :=
  lines.takeWhile fun line => (heading? line).isNone

/-- The blocks of a text, one for each heading. -/
def blocks : List (List Char) → List Block
  | [] => []
  | line :: lines =>
    match heading? line with
    | none => blocks lines
    | some heading => ⟨heading, leading lines⟩ :: blocks lines

/-- The lines of a text that are not blank, without the blanks at their ends. -/
def linesOf (text : String) : List (List Char) :=
  ((pieces (· == '\n') text.toList).map trimChars).filter (· ≠ [])

/-- The words of the lines that do not open a parenthesis. -/
def tokens (lines : List (List Char)) : List (List Char) :=
  (lines.filter (·.head? ≠ some '(')).flatMap wordsChars

/-- The lines that do not begin with `Delay`. -/
def edgeLines (lines : List (List Char)) : List (List Char) :=
  lines.filter fun line => ¬ "Delay".toList <+: line

/-! ### Listings that are read -/

/-- The results of a relation for the members of a list, in order. A member without a result is
passed over. -/
inductive Picks {α β : Type} (R : α → β → Prop) : List α → List β → Prop
  | nil : Picks R [] []
  | take {a b as bs} (h : R a b) (rest : Picks R as bs) : Picks R (a :: as) (b :: bs)
  | skip {a as bs} (h : ∀ b, ¬ R a b) (rest : Picks R as bs) : Picks R (a :: as) bs

/-- The blocks are those of a listing. -/
structure IsFormatted (bs : List Block) : Prop where
  /-- There is a state. -/
  state : ∃ b ∈ bs, b.heading = .state
  /-- A state comes before the transitions. -/
  opens : ∀ before b after, bs = before ++ b :: after → b.heading = .transitions →
    ∃ other ∈ before, other.heading = .state
  /-- The block after transitions is a state. -/
  closes : ∀ before b after, bs = before ++ b :: after → b.heading = .transitions →
    ∃ next rest, after = next :: rest ∧ next.heading = .state
  edges : ∀ b ∈ bs, b.heading = .transitions →
    ∀ line ∈ b.lines, "Delay".toList <+: line ∨ ∃ e, IsEdge line e
  bounds : ∀ b ∈ bs, b.heading = .state →
    ∀ token ∈ tokens b.lines, ∀ d, IsDifference token d → InRange d

/-- The witness has a state for each state of the listing, with its constraints, and a move for
each block of transitions, with its edges and the state of the next block. The position of that
state is the number of states before the transitions. -/
structure Lists (bs : List Block) (w : Witness) : Prop where
  states : List.Forall₂ (fun b s => Picks IsDifference (tokens b.lines) s.differences)
    (bs.filter (·.heading = .state)) w.states
  moves : List.Forall₂ (fun b m => List.Forall₂ IsEdge (edgeLines b.lines) m.edges)
    (bs.filter (·.heading = .transitions)) w.moves
  targets : ∀ before b after, bs = before ++ b :: after → b.heading = .transitions →
    w.moves[before.countP (·.heading = .transitions)]?.map (·.target) =
      some (before.countP (·.heading = .state))

/-! ### Constraints and edges -/

variable {bs : List Block} {b : Block} {line : List Char} {lines : List (List Char)}
  {ds : List Difference} {es : List WitnessEdge} {states : List SymbolicState} {moves : List Move}
  {due : Bool} {n : Nat} {w : Witness}

lemma differences_eq_map_mapM (words : List (List Char)) :
    differences words = (words.mapM difference?).map (·.flatMap Option.toList) :=
  collect_eq_map_mapM difference? differences rfl (fun _ _ => rfl) words

lemma differences_eq_ok_iff {words : List (List Char)} : differences words = .ok ds ↔
    Picks IsDifference words ds ∧ ∀ token ∈ words, ∀ d, IsDifference token d → InRange d := by
  induction words generalizing ds with
  | nil =>
    constructor
    · rintro ⟨⟩
      exact ⟨.nil, nofun⟩
    · rintro ⟨⟨⟩, -⟩
      rfl
  | cons word words ih =>
    rw [differences, bind_eq_ok_iff, List.forall_mem_cons]
    simp only [bind_eq_ok_iff, ih]
    constructor
    · rintro ⟨_ | d, hfirst, rest, ⟨hrest, hrange⟩, ⟨⟩⟩
      · have hnone := difference?_eq_ok_none_iff.1 hfirst
        exact ⟨.skip hnone hrest, fun d hd => absurd hd (hnone d), hrange⟩
      · obtain ⟨hd, hd'⟩ := difference?_eq_ok_some_iff.1 hfirst
        exact ⟨.take hd hrest, fun other hother => hd.unique hother ▸ hd', hrange⟩
    · rintro ⟨hpicks, hfirst, hrange⟩
      cases hpicks with
      | take hd hrest =>
        exact ⟨_, difference?_eq_ok_some_iff.2 ⟨hd, hfirst _ hd⟩, _, ⟨hrest, hrange⟩, rfl⟩
      | skip hnone hrest =>
        exact ⟨_, difference?_eq_ok_none_iff.2 hnone, _, ⟨hrest, hrange⟩, rfl⟩

lemma differences_append_eq_ok_iff {xs ys : List (List Char)} :
    differences (xs ++ ys) = .ok ds ↔
      ∃ first rest, differences xs = .ok first ∧ differences ys = .ok rest ∧
        ds = first ++ rest :=
  collect_append_eq_ok_iff differences_eq_map_mapM

lemma tokens_append (xs ys : List (List Char)) : tokens (xs ++ ys) = tokens xs ++ tokens ys := by
  rw [tokens, List.filter_append, List.flatMap_append, tokens, tokens]

/-! ### What is still to come -/

/-- The blocks give the states and the moves, where the first of the states has the position `n`.
A state must come next if it is `due`. -/
inductive Continues : Bool → Nat → List Block → List SymbolicState → List Move → Prop
  | done {n : Nat} : Continues false n [] [] []
  | state {due : Bool} {n : Nat} {b : Block} {s : SymbolicState} {bs : List Block}
      {states : List SymbolicState} {moves : List Move} (hb : b.heading = .state)
      (hs : differences (tokens b.lines) = .ok s.differences)
      (rest : Continues false (n + 1) bs states moves) :
      Continues due n (b :: bs) (s :: states) moves
  | move {n : Nat} {b : Block} {es : List WitnessEdge} {bs : List Block}
      {states : List SymbolicState} {moves : List Move} (hb : b.heading = .transitions)
      (hes : List.Forall₂ IsEdge (edgeLines b.lines) es) (rest : Continues true n bs states moves) :
      Continues false n (b :: bs) states (⟨es, n⟩ :: moves)

/-- What the lines that are left must be to give a witness. -/
def Progress.Tells (lines : List (List Char)) (w : Witness) : Progress → Prop
  | .banner => Continues true 0 (blocks lines) w.states w.moves
  | .state states moves constraints => ∃ ds states' moves',
    differences (tokens (leading lines)) = .ok ds ∧
      Continues false (states.length + 1) (blocks lines) states' moves' ∧
      w = ⟨states.reverse ++ ⟨constraints ++ ds⟩ :: states', moves.reverse ++ moves'⟩
  | .edges states moves taken => ∃ es states' moves',
    List.Forall₂ IsEdge (edgeLines (leading lines)) es ∧
      Continues true states.length (blocks lines) states' moves' ∧
      w = ⟨states.reverse ++ states',
        moves.reverse ++ ⟨taken.reverse ++ es, states.length⟩ :: moves'⟩

lemma continues_nil_iff : Continues due n [] states moves ↔
    due = false ∧ states = [] ∧ moves = [] := by
  constructor
  · rintro ⟨⟩
    exact ⟨rfl, rfl, rfl⟩
  · rintro ⟨rfl, rfl, rfl⟩
    exact .done

lemma continues_state_iff : Continues due n (⟨.state, lines⟩ :: bs) states moves ↔
    ∃ ds rest, differences (tokens lines) = .ok ds ∧ Continues false (n + 1) bs rest moves ∧
      states = ⟨ds⟩ :: rest := by
  constructor
  · intro h
    cases h with
    | state hb hs rest => exact ⟨_, _, hs, rest, rfl⟩
    | move hb => cases hb
  · rintro ⟨ds, rest, hds, hrest, rfl⟩
    exact .state rfl hds hrest

lemma continues_transitions_iff : Continues due n (⟨.transitions, lines⟩ :: bs) states moves ↔
    due = false ∧ ∃ es rest, List.Forall₂ IsEdge (edgeLines lines) es ∧
      Continues true n bs states rest ∧ moves = ⟨es, n⟩ :: rest := by
  constructor
  · intro h
    cases h with
    | state hb => cases hb
    | move hb hes rest => exact ⟨rfl, _, _, hes, rest, rfl⟩
  · rintro ⟨rfl, es, rest, hes, hrest, rfl⟩
    exact .move rfl hes hrest

/-! ### One line -/

section Lines

variable {p : Progress} {heading : Heading}

lemma blocks_cons_heading (h : heading? line = some heading) (lines : List (List Char)) :
    blocks (line :: lines) = ⟨heading, leading lines⟩ :: blocks lines := by
  rw [blocks, h]

lemma blocks_cons_none (h : heading? line = none) (lines : List (List Char)) :
    blocks (line :: lines) = blocks lines := by
  rw [blocks, h]

lemma leading_cons_heading (h : heading? line = some heading) (lines : List (List Char)) :
    leading (line :: lines) = [] :=
  List.takeWhile_cons_of_neg (by simp [h])

lemma leading_cons_none (h : heading? line = none) (lines : List (List Char)) :
    leading (line :: lines) = line :: leading lines :=
  List.takeWhile_cons_of_pos (by simp [h])

/-- A line that is not blank is a heading or content. -/
lemma ofChars_cases (hne : line ≠ []) :
    (heading? line = some .state ∧ Line.ofChars line = .state) ∨
      (heading? line = some .transitions ∧ Line.ofChars line = .transitions) ∨
      heading? line = none ∧ Line.ofChars line = .content line := by
  rw [heading?, Line.ofChars, if_neg hne]
  split_ifs <;> simp

/-- A heading `State:` ends what is open and opens a state. -/
lemma Progress.tells_state (h : heading? line = some .state) (number : Nat) :
    (∃ q, p.read number .state = .ok q ∧ q.Tells lines w) ↔ p.Tells (line :: lines) w := by
  cases p with
  | banner =>
    simp only [Progress.read, Except.ok.injEq, exists_eq_left', Progress.Tells,
      blocks_cons_heading h, continues_state_iff]
    constructor
    · rintro ⟨ds, states, moves, hds, hrest, rfl⟩
      exact ⟨ds, states, hds, hrest, rfl⟩
    · rintro ⟨ds, states, hds, hrest, hw⟩
      exact ⟨ds, states, w.moves, hds, hrest, by obtain ⟨_, _⟩ := w; cases hw; rfl⟩
  | state states moves constraints =>
    simp only [Progress.read, Except.ok.injEq, exists_eq_left', Progress.Tells,
      blocks_cons_heading h, leading_cons_heading h, continues_state_iff]
    constructor
    · rintro ⟨ds, states', moves', hds, hrest, rfl⟩
      exact ⟨[], _, moves', rfl, ⟨ds, states', hds, hrest, rfl⟩, by simp⟩
    · rintro ⟨_, _, moves', ⟨⟩, ⟨ds, states', hds, hrest, rfl⟩, rfl⟩
      exact ⟨ds, states', moves', hds, hrest, by simp⟩
  | edges states moves taken =>
    simp only [Progress.read, Except.ok.injEq, exists_eq_left', Progress.Tells,
      blocks_cons_heading h, leading_cons_heading h, continues_state_iff]
    constructor
    · rintro ⟨ds, states', moves', hds, hrest, rfl⟩
      exact ⟨[], _, moves', .nil, ⟨ds, states', hds, hrest, rfl⟩, by simp⟩
    · rintro ⟨_, _, moves', ⟨⟩, ⟨ds, states', hds, hrest, rfl⟩, rfl⟩
      exact ⟨ds, states', moves', hds, hrest, by simp⟩

/-- A heading of transitions may stand only behind a state. -/
lemma Progress.tells_transitions (h : heading? line = some .transitions) (number : Nat) :
    (∃ q, p.read number .transitions = .ok q ∧ q.Tells lines w) ↔ p.Tells (line :: lines) w := by
  cases p with
  | banner =>
    refine iff_of_false ?_ fun htells => ?_
    · rintro ⟨_, ⟨⟩, -⟩
    · rw [Progress.Tells, blocks_cons_heading h, continues_transitions_iff] at htells
      cases htells.1
  | state states moves constraints =>
    simp only [Progress.read, Except.ok.injEq, exists_eq_left', Progress.Tells,
      blocks_cons_heading h, leading_cons_heading h, continues_transitions_iff]
    constructor
    · rintro ⟨es, states', moves', hes, hrest, rfl⟩
      exact ⟨[], states', _, rfl, ⟨trivial, es, moves', hes, hrest, rfl⟩, by simp⟩
    · rintro ⟨_, states', _, ⟨⟩, ⟨-, es, moves', hes, hrest, rfl⟩, rfl⟩
      exact ⟨es, states', moves', hes, hrest, by simp⟩
  | edges states moves taken =>
    refine iff_of_false ?_ ?_
    · rintro ⟨_, ⟨⟩, -⟩
    · rintro ⟨_, _, _, -, hrest, -⟩
      rw [blocks_cons_heading h, continues_transitions_iff] at hrest
      cases hrest.1

/-- In a state, a line adds the constraints among its words, unless it opens a parenthesis. -/
lemma Progress.read_content_state {q : Progress} (number : Nat) (constraints : List Difference) :
    (Progress.state states moves constraints).read number (.content line) = .ok q ↔
      ∃ new, differences (tokens [line]) = .ok new ∧
        q = .state states moves (constraints ++ new) := by
  rw [Progress.read]
  by_cases hopen : line.head? = some '('
  · have htokens : tokens [line] = [] := by simp [tokens, hopen]
    rw [if_pos hopen, htokens, differences]
    simp [eq_comm]
  · have htokens : tokens [line] = wordsChars line := by simp [tokens, hopen]
    rw [if_neg hopen, htokens]
    cases differences (wordsChars line) with
    | error => simp
    | ok new => simp [eq_comm]

/-- Among the edges, a line that does not begin with `Delay` adds its edge. -/
lemma Progress.read_content_edges {q : Progress} (number : Nat) (taken : List WitnessEdge) :
    (Progress.edges states moves taken).read number (.content line) = .ok q ↔
      ∃ new, List.Forall₂ IsEdge (edgeLines [line]) new ∧
        q = .edges states moves (new.reverse ++ taken) := by
  rw [Progress.read]
  have hbegins : (dropPrefix? "Delay".toList line).isSome = true ↔ "Delay".toList <+: line := by
    simp only [Option.isSome_iff_exists, dropPrefix?_eq_some_iff]
    exact exists_congr fun rest => eq_comm
  simp only [hbegins]
  by_cases hdelay : "Delay".toList <+: line
  · have hlines : edgeLines [line] = [] := List.filter_cons_of_neg (by simpa using hdelay)
    rw [if_pos hdelay, hlines]
    simp [eq_comm]
  · have hlines : edgeLines [line] = [line] := List.filter_cons_of_pos (by simpa using hdelay)
    rw [if_neg hdelay, hlines, bind_eq_ok_iff]
    simp only [edge_eq_ok_iff]
    constructor
    · rintro ⟨e, he, ⟨⟩⟩
      exact ⟨[e], .cons he .nil, rfl⟩
    · rintro ⟨_, ⟨⟩ | ⟨he, ⟨⟩⟩, rfl⟩
      exact ⟨_, he, rfl⟩

/-- Any other line belongs to what is open. -/
lemma Progress.tells_content (h : heading? line = none) (number : Nat) :
    (∃ q, p.read number (.content line) = .ok q ∧ q.Tells lines w) ↔ p.Tells (line :: lines) w := by
  cases p with
  | banner =>
    simp only [Progress.read, Except.ok.injEq, exists_eq_left', Progress.Tells, blocks_cons_none h]
  | state states moves constraints =>
    have htokens : tokens (line :: leading lines) = tokens [line] ++ tokens (leading lines) :=
      tokens_append [line] (leading lines)
    simp only [Progress.read_content_state, Progress.Tells, blocks_cons_none h, leading_cons_none h,
      htokens, differences_append_eq_ok_iff]
    constructor
    · rintro ⟨_, ⟨new, hnew, rfl⟩, ds, states', moves', hds, hrest, rfl⟩
      exact ⟨_, states', moves', ⟨new, ds, hnew, hds, rfl⟩, hrest, by simp⟩
    · rintro ⟨_, states', moves', ⟨new, ds, hnew, hds, rfl⟩, hrest, rfl⟩
      exact ⟨_, ⟨new, hnew, rfl⟩, ds, states', moves', hds, hrest, by simp⟩
  | edges states moves taken =>
    have hlines : edgeLines (line :: leading lines) =
        edgeLines [line] ++ edgeLines (leading lines) :=
      List.filter_append [line] (leading lines)
    simp only [Progress.read_content_edges, Progress.Tells, blocks_cons_none h, leading_cons_none h,
      hlines]
    constructor
    · rintro ⟨_, ⟨new, hnew, rfl⟩, es, states', moves', hes, hrest, rfl⟩
      exact ⟨_, states', moves', List.rel_append hnew hes, hrest, by simp⟩
    · rintro ⟨all, states', moves', hall, hrest, rfl⟩
      have hnew := (List.forall₂_take_append _ _ _ hall.flip).flip
      have hes := (List.forall₂_drop_append _ _ _ hall.flip).flip
      exact ⟨_, ⟨_, hnew, rfl⟩, _, states', moves', hes, hrest, by simp⟩

lemma Progress.tells_cons (hne : line ≠ []) (number : Nat) :
    (∃ q, p.read number (.ofChars line) = .ok q ∧ q.Tells lines w) ↔ p.Tells (line :: lines) w := by
  rcases ofChars_cases hne with ⟨h, hline⟩ | ⟨h, hline⟩ | ⟨h, hline⟩
  · rw [hline, Progress.tells_state h]
  · rw [hline, Progress.tells_transitions h]
  · rw [hline, Progress.tells_content h]

/-- The end of the lines. -/
lemma Progress.tells_nil : p.finish = .ok w ↔ p.Tells [] w := by
  cases p with
  | banner => exact iff_of_false nofun fun h => by cases (continues_nil_iff.1 h).1
  | state states moves constraints =>
    rw [finish_state, Except.ok.injEq]
    constructor
    · rintro rfl
      exact ⟨[], [], [], rfl, .done, by simp⟩
    · rintro ⟨ds, _, _, ⟨⟩, h, rfl⟩
      obtain ⟨-, rfl, rfl⟩ := continues_nil_iff.1 h
      simp
  | edges states moves taken =>
    refine iff_of_false nofun ?_
    rintro ⟨_, _, _, -, h, -⟩
    cases (continues_nil_iff.1 h).1

/-- All lines, of which the blank ones say nothing. -/
lemma readLines_eq_ok_iff (number : Nat) (ls : List (List Char)) :
    (readLines number p (ls.map Line.ofChars) >>= Progress.finish) = .ok w ↔
      p.Tells (ls.filter (· ≠ [])) w := by
  induction ls generalizing number p with
  | nil => exact Progress.tells_nil
  | cons l ls ih =>
    by_cases hl : l = []
    · have hfilter : (l :: ls).filter (· ≠ []) = ls.filter (· ≠ []) :=
        List.filter_cons_of_neg (by simpa using hl)
      have hread : p.read number (Line.ofChars l) = .ok p := by
        rw [hl]
        cases p <;> rfl
      rw [hfilter, ← ih (number + 1), List.map_cons, readLines, hread]
      rfl
    · have hfilter : (l :: ls).filter (· ≠ []) = l :: ls.filter (· ≠ []) :=
        List.filter_cons_of_pos (by simpa using hl)
      rw [hfilter, ← Progress.tells_cons hl number, List.map_cons, readLines, bind_assoc,
        bind_eq_ok_iff]
      simp only [ih]

end Lines

/-- A text is read as the witness that its blocks give. -/
lemma read_eq_ok_iff_continues {text : String} :
    read text = .ok w ↔ Continues true 0 (blocks (linesOf text)) w.states w.moves := by
  have hlines : (pieces (· == '\n') text.toList).map (fun cs => Line.ofChars (trimChars cs)) =
      ((pieces (· == '\n') text.toList).map trimChars).map Line.ofChars := by
    rw [List.map_map]
    rfl
  rw [read, hlines]
  exact readLines_eq_ok_iff 1 _

/-! ### All blocks -/

/-- The blocks are in order, where a state must come first if it is `due`. -/
def Alternates : Bool → List Block → Prop
  | due, [] => due = false
  | due, b :: bs => match b.heading with
    | .state => Alternates false bs
    | .transitions => due = false ∧ Alternates true bs

/-- The first block is a state. -/
def BeginsWithState (bs : List Block) : Prop := ∃ b rest, bs = b :: rest ∧ b.heading = .state

/-- Behind each block of transitions stands a state. -/
def Closes (bs : List Block) : Prop :=
  ∀ before b after, bs = before ++ b :: after → b.heading = .transitions → BeginsWithState after

/-- What stands in the block has the form that it should have. -/
structure Block.Sound (b : Block) : Prop where
  edges : b.heading = .transitions → ∀ line ∈ b.lines, "Delay".toList <+: line ∨ ∃ e, IsEdge line e
  bounds : b.heading = .state → ∀ token ∈ tokens b.lines, ∀ d, IsDifference token d → InRange d

lemma exists_picks {α β : Type} (R : α → β → Prop) (as : List α) : ∃ bs, Picks R as bs := by
  induction as with
  | nil => exact ⟨[], .nil⟩
  | cons a as ih =>
    obtain ⟨bs, hbs⟩ := ih
    by_cases h : ∃ b, R a b
    · obtain ⟨b, hb⟩ := h
      exact ⟨b :: bs, .take hb hbs⟩
    · exact ⟨bs, .skip (not_exists.1 h) hbs⟩

lemma exists_edges_iff : (∃ es, List.Forall₂ IsEdge (edgeLines lines) es) ↔
    ∀ line ∈ lines, "Delay".toList <+: line ∨ ∃ e, IsEdge line e := by
  have hall : (∃ es, List.Forall₂ IsEdge (edgeLines lines) es) ↔
      ∀ line ∈ edgeLines lines, ∃ e, IsEdge line e := by
    refine ⟨fun ⟨es, hes⟩ line hline => ?_, exists_forall₂⟩
    obtain ⟨e, -, he⟩ := exists_of_forall₂_left hes hline
    exact ⟨e, he⟩
  rw [hall, edgeLines]
  simp only [List.mem_filter, decide_eq_true_eq, and_imp, or_iff_not_imp_left]

lemma sound_state_iff : (⟨.state, lines⟩ : Block).Sound ↔
    ∃ ds, differences (tokens lines) = .ok ds := by
  constructor
  · intro h
    obtain ⟨ds, hds⟩ := exists_picks IsDifference (tokens lines)
    exact ⟨ds, differences_eq_ok_iff.2 ⟨hds, h.bounds rfl⟩⟩
  · rintro ⟨ds, hds⟩
    exact ⟨nofun, fun _ => (differences_eq_ok_iff.1 hds).2⟩

lemma sound_transitions_iff : (⟨.transitions, lines⟩ : Block).Sound ↔
    ∃ es, List.Forall₂ IsEdge (edgeLines lines) es := by
  rw [exists_edges_iff]
  exact ⟨fun h => h.edges rfl, fun h => ⟨fun _ => h, nofun⟩⟩

lemma exists_continues_iff : (∃ states moves, Continues due n bs states moves) ↔
    Alternates due bs ∧ ∀ b ∈ bs, b.Sound := by
  -- on the blocks: each of them is sound by itself, and their order is that of the headings
  induction bs generalizing due n with
  | nil =>
    simp only [continues_nil_iff, Alternates]
    exact ⟨fun ⟨_, _, h, _⟩ => ⟨h, nofun⟩, fun ⟨h, _⟩ => ⟨[], [], h, rfl, rfl⟩⟩
  | cons b bs ih =>
    obtain ⟨heading, lines⟩ := b
    rw [List.forall_mem_cons]
    cases heading with
    | state =>
      simp only [continues_state_iff, Alternates, sound_state_iff]
      constructor
      · rintro ⟨_, moves, ds, rest, hds, hrest, rfl⟩
        obtain ⟨halternates, hsound⟩ := ih.1 ⟨rest, moves, hrest⟩
        exact ⟨halternates, ⟨ds, hds⟩, hsound⟩
      · rintro ⟨halternates, ⟨ds, hds⟩, hsound⟩
        obtain ⟨rest, moves, hrest⟩ := ih.2 ⟨halternates, hsound⟩
        exact ⟨_, moves, ds, rest, hds, hrest, rfl⟩
    | transitions =>
      simp only [continues_transitions_iff, Alternates, sound_transitions_iff]
      constructor
      · rintro ⟨states, _, hdue, es, rest, hes, hrest, rfl⟩
        obtain ⟨halternates, hsound⟩ := ih.1 ⟨states, rest, hrest⟩
        exact ⟨⟨hdue, halternates⟩, ⟨es, hes⟩, hsound⟩
      · rintro ⟨⟨hdue, halternates⟩, ⟨es, hes⟩, hsound⟩
        obtain ⟨states, rest, hrest⟩ := ih.2 ⟨halternates, hsound⟩
        exact ⟨states, _, hdue, es, rest, hes, hrest, rfl⟩

lemma closes_cons_iff : Closes (b :: bs) ↔
    (b.heading = .transitions → BeginsWithState bs) ∧ Closes bs := by
  constructor
  · exact fun h => ⟨h [] b bs rfl, fun before other after hbs =>
      h (b :: before) other after (congrArg (b :: ·) hbs)⟩
  · rintro ⟨hb, hbs⟩ (_ | ⟨first, before⟩) other after heq hother
    · cases heq
      exact hb hother
    · cases heq
      exact hbs before other after rfl hother

lemma alternates_iff : Alternates due bs ↔ (due = true → BeginsWithState bs) ∧ Closes bs := by
  induction bs generalizing due with
  | nil =>
    have hnone : ¬ BeginsWithState [] := nofun
    have hcloses : Closes [] := fun before b after h => absurd h (by simp)
    simp only [Alternates, hnone, hcloses, imp_false, Bool.not_eq_true, and_true]
  | cons b bs ih =>
    obtain ⟨heading, lines⟩ := b
    rw [closes_cons_iff, Alternates]
    cases heading with
    | state =>
      have hbegins : BeginsWithState (⟨.state, lines⟩ :: bs) := ⟨_, _, rfl, rfl⟩
      simp [ih, hbegins]
    | transitions =>
      have hbegins : ¬ BeginsWithState (⟨.transitions, lines⟩ :: bs) := by
        rintro ⟨_, _, ⟨⟩, ⟨⟩⟩
      simp [ih, hbegins]

lemma isFormatted_iff : IsFormatted bs ↔ Alternates true bs ∧ ∀ b ∈ bs, b.Sound := by
  rw [alternates_iff]
  constructor
  · intro h
    refine ⟨⟨fun _ => ?_, h.closes⟩, fun b hb => ⟨h.edges b hb, h.bounds b hb⟩⟩
    obtain ⟨b, hb, hstate⟩ := h.state
    cases bs with
    | nil => cases hb
    | cons first rest =>
      refine ⟨first, rest, rfl, ?_⟩
      cases hfirst : first.heading with
      | state => rfl
      | transitions =>
        obtain ⟨other, hother, -⟩ := h.opens [] first rest rfl hfirst
        cases hother
  · rintro ⟨⟨hbegins, hcloses⟩, hsound⟩
    obtain ⟨first, rest, rfl, hfirst⟩ := hbegins rfl
    refine ⟨⟨first, List.mem_cons_self, hfirst⟩, ?_, hcloses, fun b hb => (hsound b hb).edges,
      fun b hb => (hsound b hb).bounds⟩
    -- the first block is no transition, and it stands before every other one
    rintro (_ | ⟨other, before⟩) b after heq hb
    · cases heq
      rw [hfirst] at hb
      cases hb
    · cases heq
      exact ⟨first, List.mem_cons_self, hfirst⟩

/-! ### What the blocks give -/

lemma Continues.forall₂_states (h : Continues due n bs states moves) :
    List.Forall₂ (fun b s => Picks IsDifference (tokens b.lines) s.differences)
      (bs.filter (·.heading = .state)) states := by
  induction h with
  | done => exact .nil
  | state hb hs rest ih =>
    rw [List.filter_cons_of_pos (by simpa using hb)]
    exact .cons (differences_eq_ok_iff.1 hs).1 ih
  | move hb hes rest ih =>
    rw [List.filter_cons_of_neg (by simp [hb])]
    exact ih

lemma Continues.forall₂_moves (h : Continues due n bs states moves) :
    List.Forall₂ (fun b m => List.Forall₂ IsEdge (edgeLines b.lines) m.edges)
      (bs.filter (·.heading = .transitions)) moves := by
  induction h with
  | done => exact .nil
  | state hb hs rest ih =>
    rw [List.filter_cons_of_neg (by simp [hb])]
    exact ih
  | move hb hes rest ih =>
    rw [List.filter_cons_of_pos (by simpa using hb)]
    exact .cons hes ih

lemma Continues.map_target (h : Continues due n bs states moves) (before : List Block) (b : Block)
    (after : List Block) (hbs : bs = before ++ b :: after) (hb : b.heading = .transitions) :
    moves[before.countP (·.heading = .transitions)]?.map (·.target) =
      some (n + before.countP (·.heading = .state)) := by
  induction h generalizing before with
  | done => exact absurd hbs (by simp)
  | state hfirst hs rest ih =>
    cases before with
    | nil =>
      cases hbs
      rw [hfirst] at hb
      cases hb
    | cons first before =>
      cases hbs
      have hnext := ih before rfl
      simp only [List.countP_cons, hfirst]
      simpa [Nat.add_assoc, Nat.add_comm] using hnext
  | move hfirst hes rest ih =>
    cases before with
    | nil => rfl
    | cons first before =>
      cases hbs
      have hnext := ih before rfl
      simp only [List.countP_cons, hfirst]
      simpa using hnext

/-- A text is read exactly if its blocks are those of a listing, and the witness has what they
list. -/
theorem read_ok_iff_isFormatted (text : String) :
    ((∃ w, read text = .ok w) ↔ IsFormatted (blocks (linesOf text))) ∧
      ∀ w, read text = .ok w → Lists (blocks (linesOf text)) w := by
  constructor
  · rw [isFormatted_iff, ← exists_continues_iff (n := 0)]
    constructor
    · rintro ⟨w, hw⟩
      exact ⟨_, _, read_eq_ok_iff_continues.1 hw⟩
    · rintro ⟨states, moves, h⟩
      exact ⟨⟨states, moves⟩, read_eq_ok_iff_continues.2 h⟩
  · intro w hw
    have h := read_eq_ok_iff_continues.1 hw
    refine ⟨h.forall₂_states, h.forall₂_moves, fun before b after hbs hb => ?_⟩
    rw [h.map_target before b after hbs hb, Nat.zero_add]

/-- A listing with a banner, a step and a delay is read, and it is no listing any more if its first
state is left out. -/
theorem read_ok_iff_isFormatted_sample :
    IsFormatted (blocks (linesOf ("Verifying\n\nState:\n( P.a )\n\nTransitions:\nDelay: 2\n" ++
        "  P.a->P.b \x7b 1, send!, 1 \x7d\nState:\n( P.b )\nt(0)-x<=-2 n=3 x-t(0)<5\n"))) ∧
      ¬ IsFormatted (blocks (linesOf ("Verifying\nTransitions:\n" ++
        "  P.a->P.b \x7b 1, send!, 1 \x7d\nState:\n( P.b )\n"))) := by
  have hread : read ("Verifying\n\nState:\n( P.a )\n\nTransitions:\nDelay: 2\n" ++
      "  P.a->P.b \x7b 1, send!, 1 \x7d\nState:\n( P.b )\nt(0)-x<=-2 n=3 x-t(0)<5\n") =
      .ok ⟨[⟨[]⟩, ⟨[⟨"t(0)", "x", -2, false⟩, ⟨"x", "t(0)", 5, true⟩]⟩],
        [⟨[⟨"P", "a", "b", some "send!"⟩], 1⟩]⟩ := by
    decide +kernel
  have hfails : read ("Verifying\nTransitions:\n" ++
      "  P.a->P.b \x7b 1, send!, 1 \x7d\nState:\n( P.b )\n") =
      .error (.transitionsBeforeState 2) := by
    decide +kernel
  refine ⟨(read_ok_iff_isFormatted _).1.1 ⟨_, hread⟩, fun h => ?_⟩
  obtain ⟨w, hw⟩ := (read_ok_iff_isFormatted _).1.2 h
  cases hfails.symm.trans hw

end TimedPatterns.Listing
