import TimedPatterns.Proofs.Witness.Format

/-!
# Listings of chains

A chain is listed block by block: the first state, and for each step the edges and the state that
they lead to. A state has the text of its locations between parentheses, and then its constraints
on one line. An edge that does not synchronise has `tau` in the place of a synchronisation.

What has been listed is read back. Each line is read by itself first; then the lines of a step
take the reader from one state to the next one, and the chain follows by induction on its steps.
-/

namespace TimedPatterns

open Text

/-! ### Listings -/

/-- A constraint as it is listed. -/
def Difference.chars (d : Difference) : List Char :=
  d.left.toList ++ '-' :: (d.right.toList ++ ((if d.strict then ['<'] else ['<', '=']) ++
    (toString d.bound).toList))

/-- The guard, the synchronisation and the update of an edge as they are listed. -/
def WitnessEdge.label (e : WitnessEdge) : List Char :=
  " 1".toList ++ ',' :: (' ' :: (e.sync.getD "tau").toList ++ ',' :: " 1 ".toList)

/-- An edge as it is listed. -/
def WitnessEdge.chars (e : WitnessEdge) : List Char :=
  e.process.toList ++ '.' :: (e.source.toList ++ (['-', '>'] ++ (e.process.toList ++
    '.' :: (e.target.toList ++ ([' ', '\x7b'] ++ e.label ++ ['\x7d'])))))

namespace Chain

/-- The lines of a state with the text of its locations. -/
def stateLines (locations : List Char) (zone : List Difference) : List (List Char) :=
  ["State:".toList, '(' :: (locations ++ [')']), [' '].intercalate (zone.map (·.chars))]

/-- The lines of a step, with an indented line for each edge. -/
def stepLines (locations : List Char) (step : List WitnessEdge × List Difference) :
    List (List Char) :=
  [] :: "Transitions:".toList :: (step.1.map fun e => ' ' :: ' ' :: e.chars) ++
    [] :: stateLines locations step.2

/-- The listing of a chain with the texts of the locations of its states. -/
def listing (c : Chain) (locations : Nat → List Char) : String :=
  String.ofList (['\n'].intercalate (stateLines (locations 0) c.first ++
    c.steps.zipIdx.flatMap fun (step, i) => stepLines (locations (i + 1)) step))

end Chain

namespace Listing

variable {xs : List Char} {d : Difference} {e : WitnessEdge}

/-! ### Constraints -/

/-- A constraint that has been listed is read back. -/
lemma difference?_chars (h : d.Written) : difference? d.chars = .ok (some d) := by
  have hform : IsDifference d.chars d :=
    ⟨⟨h.left.toList_ne_nil, h.left.isClockChar⟩, ⟨h.right.toList_ne_nil, h.right.isClockChar⟩,
      _, denotes_toString d.bound, rfl⟩
  exact difference?_eq_ok_some_iff.2 ⟨hform, h.min_le, h.le_max⟩

lemma differences_map_chars {zone : List Difference} (h : ∀ d ∈ zone, d.Written) :
    differences (zone.map (·.chars)) = .ok zone := by
  induction zone with
  | nil => rfl
  | cons d zone ih =>
    obtain ⟨hd, hzone⟩ := List.forall_mem_cons.1 h
    rw [List.map_cons, differences, difference?_chars hd, ih hzone]
    rfl

/-! ### Edges -/

/-- The synchronisation of an edge is the one part of its label that has the form of one. -/
lemma sync?_label (h : ∀ sync ∈ e.sync, IsSynchronisation sync) : sync? e.label = e.sync := by
  have hcomma : ∀ x ∈ ' ' :: (e.sync.getD "tau").toList, (x == ',') = false := by
    rw [List.forall_mem_cons]
    refine ⟨rfl, fun x hx => ?_⟩
    cases hsync : e.sync with
    | none =>
      rw [hsync] at hx
      revert x
      simp
    | some sync =>
      rw [hsync] at hx
      exact beq_eq_false_iff_ne.2 ((h sync hsync).ne_comma x hx)
  -- the label has three parts, of which only the middle one can be a synchronisation
  have hpieces : pieces (· == ',') e.label =
      [" 1".toList, ' ' :: (e.sync.getD "tau").toList, " 1 ".toList] := by
    rw [WitnessEdge.label, pieces_append_cons (by simp) rfl, pieces_append_cons hcomma rfl]
    rfl
  have hguard : isSync (trimChars " 1".toList) = false := by decide
  have hupdate : isSync (trimChars " 1 ".toList) = false := by decide
  rw [sync?, hpieces, List.map_cons, List.map_cons, List.map_singleton, List.find?_cons, hguard,
    List.find?_cons, trimChars_cons rfl]
  cases hsync : e.sync with
  | none =>
    have htau : isSync (trimChars "tau".toList) = false := by decide
    rw [Option.getD_none, htau, List.find?_singleton, hupdate]
    rfl
  | some sync =>
    have hsync' := h sync hsync
    rw [Option.getD_some, (trimmed_of_forall hsync'.isBlank).trimChars_eq,
      IsSynchronisation.iff_isSync.1 hsync']
    exact congrArg some String.ofList_toList

lemma ne_newline_of_mem_label (h : ∀ sync ∈ e.sync, IsSynchronisation sync) :
    ∀ x ∈ e.label, x ≠ '\n' := by
  have hsync : ∀ x ∈ (e.sync.getD "tau").toList, x ≠ '\n' := by
    cases hsync : e.sync with
    | none => simp
    | some sync =>
      intro x hx
      rintro rfl
      exact absurd ((h sync hsync).isBlank _ hx) (by decide)
  rw [WitnessEdge.label, List.forall_mem_append, List.forall_mem_cons, List.forall_mem_append,
    List.forall_mem_cons, List.forall_mem_cons]
  exact ⟨by simp, by decide, ⟨by decide, hsync⟩, by decide, by simp⟩

/-- An edge that has been listed is read back. -/
lemma edge_chars (h : e.Written) (number : Nat) : edge number e.chars = .ok e := by
  have hlabel : '\n' ∉ e.label := fun hx => ne_newline_of_mem_label h.sync _ hx rfl
  rw [edge_eq_ok_iff]
  exact ⟨⟨h.process.toList_ne_nil, h.process.isProcessChar⟩,
    ⟨h.source.toList_ne_nil, h.source.isLocationChar⟩,
    ⟨h.target.toList_ne_nil, h.target.isLocationChar⟩, [' '], e.label,
    List.forall_mem_singleton.2 rfl, hlabel, rfl,
    (sync?_label h.sync).symm.trans (sync?_eq e.label)⟩

/-! ### Lines -/

/-- What a line is when it is read. -/
def lineOf (cs : List Char) : Line := Line.ofChars (trimChars cs)

/-- A line with a character that no heading has is content. -/
lemma ofChars_eq_content {c : Char} (hc : c ∈ xs) (hstate : c ∉ "State:".toList)
    (htransitions : c ∉ "Transitions:".toList) (htransition : c ∉ "Transition:".toList) :
    Line.ofChars xs = .content xs := by
  rw [Line.ofChars, if_neg, if_neg, if_neg]
  · rintro (rfl | rfl)
    · exact htransitions hc
    · exact htransition hc
  · rintro rfl
    exact hstate hc
  · rintro rfl
    cases hc

/-- The line of the locations says nothing. -/
lemma read_locations (locations : List Char) (number : Nat) (states : List SymbolicState)
    (moves : List Move) (constraints : List Difference) :
    (Progress.state states moves constraints).read number
        (lineOf ('(' :: (locations ++ [')']))) =
      .ok (.state states moves constraints) := by
  have htrimmed : Trimmed ('(' :: (locations ++ [')'])) := by
    constructor
    · rintro _ ⟨⟩
      rfl
    · intro c hc
      have hlast : ('(' :: (locations ++ [')'])).getLast? = some ')' := by
        rw [← List.cons_append, List.getLast?_concat]
      rw [hlast] at hc
      cases hc
      rfl
  rw [lineOf, htrimmed.trimChars_eq,
    ofChars_eq_content List.mem_cons_self (by decide) (by decide) (by decide)]
  rfl

lemma isBlank_of_mem_chars (h : d.Written) : ∀ x ∈ d.chars, isBlank x = false := by
  have hname : ∀ {name : String}, IsClockName name → ∀ x ∈ name.toList, isBlank x = false :=
    fun hname x hx => isBlank_of_isClockChar (hname.isClockChar x hx)
  have hcomparison : ∀ x ∈ (if d.strict then ['<'] else ['<', '=']), isBlank x = false := by
    cases d.strict <;> simp [isBlank]
  rw [Difference.chars, List.forall_mem_append, List.forall_mem_cons, List.forall_mem_append,
    List.forall_mem_append]
  exact ⟨hname h.left, rfl, hname h.right, hcomparison, fun x => isBlank_of_mem_toString_int⟩

/-- The line of the constraints adds them to an empty state. -/
lemma read_constraints {zone : List Difference} (h : ∀ d ∈ zone, d.Written) (number : Nat)
    (states : List SymbolicState) (moves : List Move) :
    (Progress.state states moves []).read number
        (lineOf ([' '].intercalate (zone.map (·.chars)))) =
      .ok (.state states moves zone) := by
  cases zone with
  | nil => rfl
  | cons d zone =>
    have hd := h d List.mem_cons_self
    have hne : ∀ part ∈ (d :: zone).map (·.chars), part ≠ [] := by
      rw [List.forall_mem_map]
      intro d hd
      exact List.append_ne_nil_of_left_ne_nil (h d hd).left.toList_ne_nil _
    have hblank : ∀ part ∈ (d :: zone).map (·.chars), ∀ x ∈ part, isBlank x = false := by
      rw [List.forall_mem_map]
      exact fun d hd => isBlank_of_mem_chars (h d hd)
    have htrimmed := trimmed_intercalate hne fun part hpart => trimmed_of_forall (hblank part hpart)
    have hprefix : d.chars <+: [' '].intercalate ((d :: zone).map (·.chars)) := by
      cases zone with
      | nil =>
        rw [List.map_singleton, List.intercalate_singleton]
      | cons next zone =>
        rw [List.map_cons, List.map_cons, List.intercalate_cons_cons, List.append_assoc]
        exact List.prefix_append _ _
    -- the line is not mistaken for a blank one or a heading, because of the sign in its first
    -- difference
    have hless : '<' ∈ [' '].intercalate ((d :: zone).map (·.chars)) := by
      refine hprefix.subset ?_
      cases hstrict : d.strict <;> simp [Difference.chars, hstrict]
    have hhead : ([' '].intercalate ((d :: zone).map (·.chars))).head? ≠ some '(' := by
      obtain ⟨c, cs, hcons⟩ := List.exists_cons_of_ne_nil hd.left.toList_ne_nil
      have hc := hd.left.head?_ne
      obtain ⟨rest, hrest⟩ := hprefix
      rw [← hrest, Difference.chars, hcons]
      rwa [hcons] at hc
    rw [lineOf, htrimmed.trimChars_eq,
      ofChars_eq_content hless (by decide) (by decide) (by decide), Progress.read, if_neg hhead,
      wordsChars_intercalate hne hblank, differences_map_chars h]
    rfl

lemma trimmed_chars (h : e.Written) : Trimmed e.chars := by
  constructor
  · obtain ⟨c, cs, hcons⟩ := List.exists_cons_of_ne_nil h.process.toList_ne_nil
    have hc : c ∈ e.process.toList := hcons ▸ List.mem_cons_self
    rw [WitnessEdge.chars, hcons]
    rintro _ ⟨⟩
    exact isBlank_of_isClockChar (isClockChar_of_isProcessChar (h.process.isProcessChar c hc))
  · have hlast : e.chars.getLast? = some '\x7d' := by
      simp [WitnessEdge.chars, List.getLast?_append, List.getLast?_cons]
    rw [hlast]
    rintro _ ⟨⟩
    rfl

/-- An edge is not listed like a delay. -/
lemma dropPrefix?_delay (h : e.Written) : dropPrefix? "Delay".toList e.chars = none := by
  cases hdrop : dropPrefix? "Delay".toList e.chars with
  | none => rfl
  | some rest =>
    exfalso
    have hdelay : "Delay".toList <+: e.chars := ⟨rest, (dropPrefix?_eq_some_iff.1 hdrop).symm⟩
    -- of two beginnings of a line, one is a beginning of the other
    have hprocess : e.process.toList ++ ['.'] <+: e.chars :=
      (List.prefix_append_right_inj _).2 ⟨_, rfl⟩
    have hpoint : '.' ∉ "Delay".toList := by decide
    rcases List.prefix_or_prefix_of_prefix hdelay hprocess with hp | hp
    · rcases List.prefix_concat_iff.1 hp with heq | hp
      · exact hpoint (heq ▸ List.mem_concat_self)
      · exact h.process.2.2 hp
    · exact hpoint (hp.subset List.mem_concat_self)

/-- The line of an edge adds it to those that are taken. -/
lemma read_edge (h : e.Written) (number : Nat) (states : List SymbolicState)
    (moves : List Move) (taken : List WitnessEdge) :
    (Progress.edges states moves taken).read number (lineOf (' ' :: ' ' :: e.chars)) =
      .ok (.edges states moves (e :: taken)) := by
  have hbrace : '\x7d' ∈ e.chars := by simp [WitnessEdge.chars]
  rw [lineOf, trimChars_cons rfl, trimChars_cons rfl, (trimmed_chars h).trimChars_eq,
    ofChars_eq_content hbrace (by decide) (by decide) (by decide), Progress.read,
    dropPrefix?_delay h, edge_chars h]
  rfl

/-! ### Blocks -/

lemma readLines_append (number : Nat) (progress : Progress) (xs ys : List Line) :
    readLines number progress (xs ++ ys) =
      (readLines number progress xs).bind fun progress =>
        readLines (number + xs.length) progress ys := by
  induction xs generalizing number progress with
  | nil => rfl
  | cons x xs ih =>
    rw [List.cons_append, readLines, readLines]
    cases progress.read number x with
    | error flaw => rfl
    | ok progress =>
      show readLines (number + 1) progress (xs ++ ys) = _
      rw [ih, List.length_cons, Nat.add_assoc, Nat.add_comm 1]
      rfl

/-- The lines of the edges add them to those that are taken, the latest first. -/
lemma readLines_edges {edges : List WitnessEdge} (h : ∀ e ∈ edges, e.Written) (number : Nat)
    (states : List SymbolicState) (moves : List Move) (taken : List WitnessEdge) :
    readLines number (.edges states moves taken)
        (edges.map fun e => lineOf (' ' :: ' ' :: e.chars)) =
      .ok (.edges states moves (edges.reverse ++ taken)) := by
  induction edges generalizing number taken with
  | nil => rfl
  | cons e edges ih =>
    obtain ⟨he, hedges⟩ := List.forall_mem_cons.1 h
    rw [List.map_cons, readLines, read_edge he]
    show readLines (number + 1) (.edges states moves (e :: taken)) _ = _
    rw [ih hedges, List.reverse_cons, List.append_assoc]
    rfl

/-- The lines of a state open it with its constraints. -/
lemma readLines_stateLines {zone : List Difference} (h : ∀ d ∈ zone, d.Written)
    (locations : List Char) (number : Nat) {progress : Progress} {states : List SymbolicState}
    {moves : List Move}
    (hstate : ∀ number, progress.read number .state = .ok (.state states moves [])) :
    readLines number progress ((Chain.stateLines locations zone).map lineOf) =
      .ok (.state states moves zone) := by
  have hhead : lineOf "State:".toList = .state := by decide
  simp only [Chain.stateLines, List.map_cons, List.map_nil, hhead, readLines, hstate,
    read_locations, read_constraints h, bind, Except.bind]

/-- The lines of a step take the reader from one state to the next one. -/
lemma readLines_stepLines {step : List WitnessEdge × List Difference}
    (hedges : ∀ e ∈ step.1, e.Written) (hzone : ∀ d ∈ step.2, d.Written) (locations : List Char)
    (number : Nat) (states : List SymbolicState) (moves : List Move)
    (constraints : List Difference) :
    readLines number (.state states moves constraints)
        ((Chain.stepLines locations step).map lineOf) =
      .ok (.state (⟨constraints⟩ :: states) (⟨step.1, states.length + 1⟩ :: moves) step.2) := by
  have hlines : (Chain.stepLines locations step).map lineOf =
      .blank :: .transitions :: ((step.1.map fun e => lineOf (' ' :: ' ' :: e.chars)) ++
        .blank :: (Chain.stateLines locations step.2).map lineOf) := by
    have hblank : lineOf [] = .blank := rfl
    have hhead : lineOf "Transitions:".toList = .transitions := by decide
    simp only [Chain.stepLines, List.map_append, List.map_cons, List.map_map, hblank, hhead,
      List.cons_append]
    rfl
  -- the heading closes the state before, and the next state closes the transition
  have hopen (lines : List Line) : readLines number (.state states moves constraints)
      (.blank :: .transitions :: lines) =
        readLines (number + 2) (.edges (⟨constraints⟩ :: states) moves []) lines := rfl
  have hopened (number : Nat) : Progress.read number
      (.edges (⟨constraints⟩ :: states) moves step.1.reverse) .state =
        .ok (.state (⟨constraints⟩ :: states) (⟨step.1, states.length + 1⟩ :: moves) []) := by
    rw [Progress.read, List.reverse_reverse, List.length_cons]
  rw [hlines, hopen, readLines_append, readLines_edges hedges, List.append_nil]
  exact readLines_stateLines hzone locations _ hopened

/-! ### Chains -/

/-- The witness that has been read behind a state. -/
lemma finish_state (states : List SymbolicState) (moves : List Move)
    (constraints : List Difference) :
    (Progress.state states moves constraints).finish =
      .ok ⟨states.reverse ++ [⟨constraints⟩], moves.reverse⟩ := by
  rw [Progress.finish, List.reverse_cons]

/-- The lines of the steps of a chain add its states and moves to those that have been read. -/
lemma readLines_steps {steps : List (List WitnessEdge × List Difference)}
    (hedges : ∀ step ∈ steps, ∀ e ∈ step.1, e.Written)
    (hzones : ∀ step ∈ steps, ∀ d ∈ step.2, d.Written) (locations : Nat → List Char)
    (number : Nat) (states : List SymbolicState) (moves : List Move)
    (constraints : List Difference) :
    (readLines number (.state states moves constraints)
        (((steps.zipIdx states.length).flatMap fun (step, i) =>
          Chain.stepLines (locations (i + 1)) step).map lineOf)).bind Progress.finish =
      .ok ⟨states.reverse ++ ⟨constraints⟩ :: steps.map (⟨·.2⟩),
        moves.reverse ++ (steps.zipIdx states.length).map fun (step, i) => ⟨step.1, i + 1⟩⟩ := by
  induction steps generalizing number states moves constraints with
  | nil =>
    rw [List.zipIdx_nil, List.flatMap_nil, List.map_nil, readLines]
    show (Progress.state states moves constraints).finish = _
    rw [finish_state, List.map_nil, List.map_nil, List.append_nil]
  | cons step steps ih =>
    obtain ⟨hedge, hedges⟩ := List.forall_mem_cons.1 hedges
    obtain ⟨hzone, hzones⟩ := List.forall_mem_cons.1 hzones
    -- the state of the step is open now, and the states before it count the position on
    have hnext := ih hedges hzones
      (number + ((Chain.stepLines (locations (states.length + 1)) step).map lineOf).length)
      (⟨constraints⟩ :: states) (⟨step.1, states.length + 1⟩ :: moves) step.2
    rw [List.zipIdx_cons, List.flatMap_cons, List.map_append, readLines_append,
      readLines_stepLines hedge hzone]
    refine hnext.trans ?_
    simp

lemma ne_newline_of_isBlank (h : ∀ x ∈ xs, isBlank x = false) : ∀ x ∈ xs, x ≠ '\n' := by
  rintro x hx rfl
  exact absurd (h _ hx) (by decide)

lemma ne_newline_of_mem_chars (h : e.Written) : ∀ x ∈ e.chars, x ≠ '\n' := by
  have hname {x : Char} (hx : isClockChar x = true) : x ≠ '\n' := ne_of_isClockChar hx (by decide)
  have hprocess : ∀ x ∈ e.process.toList, x ≠ '\n' := fun x hx =>
    hname (isClockChar_of_isProcessChar (h.process.isProcessChar x hx))
  have hsource : ∀ x ∈ e.source.toList, x ≠ '\n' := fun x hx =>
    hname (isClockChar_of_isLocationChar (h.source.isLocationChar x hx))
  have htarget : ∀ x ∈ e.target.toList, x ≠ '\n' := fun x hx =>
    hname (isClockChar_of_isLocationChar (h.target.isLocationChar x hx))
  simp only [WitnessEdge.chars, List.forall_mem_append, List.forall_mem_cons]
  exact ⟨hprocess, by decide, hsource, by simp, hprocess, by decide, htarget,
    ⟨by simp, ne_newline_of_mem_label h.sync⟩, by simp⟩

lemma ne_newline_of_mem_stateLines {zone : List Difference} (h : ∀ d ∈ zone, d.Written)
    {locations : List Char} (hlocations : ∀ x ∈ locations, x ≠ '\n') :
    ∀ line ∈ Chain.stateLines locations zone, ∀ x ∈ line, x ≠ '\n' := by
  have hconstraints : ∀ x ∈ [' '].intercalate (zone.map (·.chars)), x ≠ '\n' := by
    refine forall_mem_intercalate (List.forall_mem_singleton.2 (by decide)) ?_
    rw [List.forall_mem_map]
    exact fun d hd => ne_newline_of_isBlank (isBlank_of_mem_chars (h d hd))
  simp only [Chain.stateLines, List.forall_mem_cons, List.forall_mem_append]
  exact ⟨by simp, ⟨by decide, hlocations, by simp⟩, hconstraints, nofun⟩

lemma ne_newline_of_mem_stepLines {step : List WitnessEdge × List Difference}
    (hedges : ∀ e ∈ step.1, e.Written) (hzone : ∀ d ∈ step.2, d.Written) {locations : List Char}
    (hlocations : ∀ x ∈ locations, x ≠ '\n') :
    ∀ line ∈ Chain.stepLines locations step, ∀ x ∈ line, x ≠ '\n' := by
  simp only [Chain.stepLines, List.cons_append, List.forall_mem_cons, List.forall_mem_append,
    List.forall_mem_map]
  exact ⟨nofun, by simp,
    fun e he => ⟨by decide, by decide, ne_newline_of_mem_chars (hedges e he)⟩,
    nofun, ne_newline_of_mem_stateLines hzone hlocations⟩

/-- A chain that has been listed is read back. -/
theorem read_listing {c : Chain} (h : c.Written) {locations : Nat → List Char}
    (hlocations : ∀ i, ∀ x ∈ locations i, x ≠ '\n') :
    read (c.listing locations) = .ok c.witness := by
  have hfirst : ∀ d ∈ c.first, d.Written := h.zones _ List.mem_cons_self
  have hzones : ∀ step ∈ c.steps, ∀ d ∈ step.2, d.Written := fun step hstep =>
    h.zones _ (List.mem_cons_of_mem _ (List.mem_map_of_mem hstep))
  have hpieces : pieces (· == '\n') (c.listing locations).toList =
      Chain.stateLines (locations 0) c.first ++ c.steps.zipIdx.flatMap fun (step, i) =>
        Chain.stepLines (locations (i + 1)) step := by
    rw [Chain.listing, String.toList_ofList]
    refine pieces_intercalate (List.cons_ne_nil _ _) (fun line hline x hx => ?_) rfl
    refine beq_eq_false_iff_ne.2 ?_
    rcases List.mem_append.1 hline with hline | hline
    · exact ne_newline_of_mem_stateLines hfirst (hlocations 0) line hline x hx
    · obtain ⟨⟨step, i⟩, hstep, hline⟩ := List.mem_flatMap.1 hline
      have hstep : step ∈ c.steps := List.fst_mem_of_mem_zipIdx hstep
      exact ne_newline_of_mem_stepLines (h.edges step hstep) (hzones step hstep)
        (hlocations (i + 1)) line hline x hx
  have hopen : readLines 1 .banner ((Chain.stateLines (locations 0) c.first).map lineOf) =
      .ok (.state [] [] c.first) :=
    readLines_stateLines hfirst _ _ fun _ => rfl
  have hsteps := readLines_steps h.edges hzones locations
    (1 + ((Chain.stateLines (locations 0) c.first).map lineOf).length) [] [] c.first
  show (readLines 1 .banner ((pieces (· == '\n') (c.listing locations).toList).map lineOf)).bind
    Progress.finish = _
  rw [hpieces, List.map_append, readLines_append, hopen]
  refine hsteps.trans ?_
  simp [Chain.witness, Chain.zones]

end Listing

end TimedPatterns
