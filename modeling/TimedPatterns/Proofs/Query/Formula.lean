import Mathlib.Tactic
import TimedPatterns.Proofs.Text.Occurrence
import TimedPatterns.Query

/-!
# Formulas of a query

What the text of a formula says. Its tokens are names, signs and words, with blanks between them
where they are wanted; they are read by a grammar in which `!` binds tightest, then `&&` and `and`,
then `||`, `or` and `imply`. How the operators of the last kind are grouped among themselves is left
open (`Grouping`).

A text is one sequence of tokens at most (`Lexes.unique`), and tokens are read as one formula at
most (`Reads.unique`). The latter is so because an operator that binds looser than the phrase in
which it stands is within parentheses there (`Reads.nested`).
-/

namespace TimedPatterns.Query

open Text

/-! ### Formulas -/

/-- An operator that binds looser than a conjunction. -/
inductive LooseOperator where
  | bars
  | or
  | imply
  deriving DecidableEq, Repr

/-- A formula over the locations of templates. -/
inductive Formula where
  | location (template name : String)
  | not (f : Formula)
  | and (f g : Formula)
  | loose (operator : LooseOperator) (f g : Formula)
  deriving DecidableEq, Repr

/-- What an operator says of what its sides say. -/
def LooseOperator.Joins (p q : Prop) : LooseOperator → Prop
  | .bars | .or => p ∨ q
  | .imply => p → q

/-- Whether a formula holds, given which template stands in which location. -/
def Formula.Holds (stands : String → String → Prop) : Formula → Prop
  | .location template name => stands template name
  | .not f => ¬ f.Holds stands
  | .and f g => f.Holds stands ∧ g.Holds stands
  | .loose operator f g => operator.Joins (f.Holds stands) (g.Holds stands)

/-- How formulas with loose operators between them are grouped: the first one, and each of the
others behind its operator. -/
structure Grouping where
  join : Formula → List (LooseOperator × Formula) → Formula
  join_nil (f : Formula) : join f [] = f

/-! ### Tokens -/

/-- A token of a formula. -/
inductive Token where
  | name (text : String)
  | point
  | not
  | and
  | loose (operator : LooseOperator)
  | opening
  | closing
  deriving DecidableEq, Repr

def signs : List (List Char × Token) :=
  [(['&', '&'], .and), (['|', '|'], .loose .bars), (['!'], .not), (['.'], .point),
    (['('], .opening), ([')'], .closing)]

/-- The token that a word is. -/
def Token.ofWord (w : List Char) : Token :=
  if w = ['a', 'n', 'd'] then .and
  else if w = ['o', 'r'] then .loose .or
  else if w = ['i', 'm', 'p', 'l', 'y'] then .loose .imply
  else .name (String.ofList w)

/-- A text is a sequence of tokens. A word ends where no word character follows. -/
inductive Lexes : List Char → List Token → Prop
  | nil : Lexes [] []
  | blank {c : Char} {cs : List Char} {ts : List Token} (hblank : isBlank c = true)
      (h : Lexes cs ts) : Lexes (c :: cs) ts
  | sign {s cs : List Char} {t : Token} {ts : List Token} (hsign : (s, t) ∈ signs)
      (h : Lexes cs ts) : Lexes (s ++ cs) (t :: ts)
  | word {w cs : List Char} {ts : List Token} (hne : w ≠ []) (hword : ∀ c ∈ w, isWord c = true)
      (hend : ∀ c ∈ cs.head?, isWord c = false) (h : Lexes cs ts) :
      Lexes (w ++ cs) (.ofWord w :: ts)

/-! ### Phrases -/

/-- How tight a phrase holds together: as the operand of `!`, as a conjunction, or as any
formula. -/
inductive Level where
  | unit
  | tight
  | loose
  deriving DecidableEq, Repr

/-- Tokens are read as a phrase: a formula and, on the last level, those that follow it behind
loose operators. -/
inductive Reads (g : Grouping) :
    Level → List Token → Formula → List (LooseOperator × Formula) → Prop
  | location (template name : String) :
      Reads g .unit [.name template, .point, .name name] (.location template name) []
  | not {ts : List Token} {f : Formula} (h : Reads g .unit ts f []) :
      Reads g .unit (.not :: ts) (.not f) []
  | parentheses {ts : List Token} {f : Formula} {rest : List (LooseOperator × Formula)}
      (h : Reads g .loose ts f rest) :
      Reads g .unit (.opening :: (ts ++ [.closing])) (g.join f rest) []
  | unit {ts : List Token} {f : Formula} (h : Reads g .unit ts f []) : Reads g .tight ts f []
  | and {ts us : List Token} {f f' : Formula} (h : Reads g .tight ts f [])
      (h' : Reads g .unit us f' []) : Reads g .tight (ts ++ .and :: us) (.and f f') []
  | tight {ts : List Token} {f : Formula} (h : Reads g .tight ts f []) : Reads g .loose ts f []
  | loose {ts us : List Token} {f f' : Formula} {rest : List (LooseOperator × Formula)}
      (operator : LooseOperator) (h : Reads g .loose ts f rest) (h' : Reads g .tight us f' []) :
      Reads g .loose (ts ++ .loose operator :: us) f (rest ++ [(operator, f')])

/-- What a text says. -/
def Says (g : Grouping) (cs : List Char) (f : Formula) : Prop :=
  ∃ ts f₀ rest, Lexes cs ts ∧ Reads g .loose ts f₀ rest ∧ f = g.join f₀ rest

variable {g : Grouping} {l : Level} {ts us ts' us' : List Token} {t t' : Token} {f f' : Formula}
  {rest rest' : List (LooseOperator × Formula)} {c : Char} {cs cs' s w : List Char}

/-! ### Parentheses -/

/-- What a token adds to the number of parentheses that are open. -/
def Token.weight : Token → Int
  | .opening => 1
  | .closing => -1
  | _ => 0

/-- How many parentheses are open behind some tokens. -/
def depth (ts : List Token) : Int := (ts.map Token.weight).sum

@[simp] lemma depth_nil : depth [] = 0 := rfl

@[simp] lemma depth_cons (t : Token) (ts : List Token) : depth (t :: ts) = t.weight + depth ts := by
  simp [depth]

@[simp] lemma depth_append (ts us : List Token) : depth (ts ++ us) = depth ts + depth us := by
  simp [depth]

/-- The operators that bind looser than a phrase of a level holds together. -/
def Level.Excludes : Level → Token → Prop
  | .unit, t => t = .and ∨ ∃ operator, t = .loose operator
  | .tight, t => ∃ operator, t = .loose operator
  | .loose, _ => False

/-- Parentheses are closed after they are opened, and operators that bind looser than the phrase
are within them. -/
structure Nested (l : Level) (ts : List Token) : Prop where
  closed : depth ts = 0
  before : ∀ us t us', ts = us ++ t :: us' → 0 ≤ depth us ∧ (l.Excludes t → 0 < depth us)

/-- A token of two phrases with a token between them. -/
lemma split_append {x : Token} {as bs : List Token} (h : ts ++ t :: us = as ++ x :: bs) :
    (∃ cs, ts = as ++ x :: cs) ∨ (as = ts ∧ x = t) ∨
      ∃ cs, as = ts ++ t :: cs ∧ us = cs ++ x :: bs := by
  rcases List.append_eq_append_iff.1 h with ⟨cs, rfl, hcs⟩ | ⟨cs, rfl, hcs⟩
  · cases cs with
    | nil =>
      obtain ⟨rfl, rfl⟩ := List.cons.inj hcs
      exact .inr (.inl ⟨by simp, rfl⟩)
    | cons y cs =>
      obtain ⟨rfl, rfl⟩ := List.cons.inj hcs
      exact .inr (.inr ⟨cs, rfl, rfl⟩)
  · cases cs with
    | nil =>
      obtain ⟨rfl, rfl⟩ := List.cons.inj hcs
      exact .inr (.inl ⟨by simp, rfl⟩)
    | cons y cs =>
      obtain ⟨rfl, rfl⟩ := List.cons.inj hcs
      exact .inl ⟨cs, rfl⟩

lemma nested_of_forall (h : ∀ t ∈ ts, t.weight = 0 ∧ ¬ l.Excludes t) : Nested l ts := by
  have hdepth : ∀ us ⊆ ts, depth us = 0 := fun us hus =>
    List.sum_eq_zero fun x hx => by
      obtain ⟨t, ht, rfl⟩ := List.mem_map.1 hx
      exact (h t (hus ht)).1
  refine ⟨hdepth ts (List.Subset.refl ts), fun us t us' hsplit => ?_⟩
  subst hsplit
  have ht : t ∈ us ++ t :: us' := List.mem_append_right _ List.mem_cons_self
  exact ⟨(hdepth us (List.subset_append_left _ _)).ge, fun hexcludes => absurd hexcludes (h t ht).2⟩

lemma Nested.of_excludes {l' : Level} (h : Nested l ts) (hl : ∀ t, l'.Excludes t → l.Excludes t) :
    Nested l' ts :=
  ⟨h.closed, fun us t us' hts => ⟨(h.before us t us' hts).1,
    fun ht => (h.before us t us' hts).2 (hl t ht)⟩⟩

/-- A phrase that an operator joins to a tighter one. -/
lemma Nested.join {l' : Level} (h : Nested l ts) (h' : Nested l' us) (ht : t.weight = 0)
    (htl : ¬ l.Excludes t) (hl : ∀ t, l.Excludes t → l'.Excludes t) : Nested l (ts ++ t :: us) where
  closed := by simp [h.closed, h'.closed, ht]
  before as x bs hsplit := by
    rcases split_append hsplit with ⟨cs, hcs⟩ | ⟨rfl, rfl⟩ | ⟨cs, rfl, hcs⟩
    · exact h.before as x cs hcs
    · exact ⟨h.closed.ge, fun hx => absurd hx htl⟩
    · obtain ⟨hge, hgt⟩ := h'.before cs x bs hcs
      simp only [depth_append, depth_cons, h.closed, ht, zero_add]
      exact ⟨hge, fun hx => hgt (hl x hx)⟩

lemma Nested.parentheses (h : Nested .loose ts) :
    Nested .unit (.opening :: (ts ++ [.closing])) where
  closed := by simp [h.closed, Token.weight]
  before as x bs hsplit := by
    cases as with
    | nil =>
      obtain ⟨rfl, -⟩ := List.cons.inj hsplit
      exact ⟨le_rfl, by rintro (hx | ⟨operator, hx⟩) <;> cases hx⟩
    | cons a as =>
      obtain ⟨rfl, hinner⟩ := List.cons.inj hsplit
      have hge : 0 ≤ depth as := by
        rcases split_append hinner with ⟨cs, hcs⟩ | ⟨rfl, -⟩ | ⟨cs, -, hcs⟩
        · exact (h.before as x cs hcs).1
        · exact h.closed.ge
        · exact absurd hcs (by simp)
      have hdepth : depth (.opening :: as) = 1 + depth as := depth_cons _ _
      rw [hdepth]
      exact ⟨by omega, fun _ => by omega⟩

lemma Reads.nested (h : Reads g l ts f rest) : Nested l ts := by
  induction h with
  | location template name =>
    refine nested_of_forall ?_
    simp [Token.weight, Level.Excludes]
  | @not ts f _ ih =>
    have hnil : Nested .unit [] := nested_of_forall nofun
    exact hnil.join ih rfl (by simp [Level.Excludes]) fun _ ht => ht
  | parentheses _ ih => exact ih.parentheses
  | unit _ ih => exact ih.of_excludes fun _ ht => .inr ht
  | and _ _ ih ih' => exact ih.join ih' rfl (by simp [Level.Excludes]) fun _ ht => .inr ht
  | tight _ ih => exact ih.of_excludes fun _ ht => ht.elim
  | loose operator _ _ ih ih' => exact ih.join ih' rfl id fun _ ht => ht.elim

/-! ### One reading at most -/

/-- There is one place at most where an operator joins a phrase to one that holds together
tighter. -/
lemma join_unique (h : ts ++ t :: us = ts' ++ t' :: us') (hts : depth ts = 0) (hts' : depth ts' = 0)
    (hus : Nested l us) (hus' : Nested l us') (hweight : t.weight = 0) (hweight' : t'.weight = 0)
    (ht : l.Excludes t) (ht' : l.Excludes t') : ts = ts' ∧ t = t' ∧ us = us' := by
  rcases split_append h with ⟨cs, rfl⟩ | ⟨rfl, rfl⟩ | ⟨cs, rfl, hcs⟩
  · rw [List.append_assoc, List.cons_append, List.append_cancel_left_eq, List.cons.injEq] at h
    have hgt := (hus'.before cs t us h.2.symm).2 ht
    rw [depth_append, depth_cons, hts', hweight'] at hts
    omega
  · exact ⟨rfl, rfl, (List.cons.inj (List.append_cancel_left h)).2⟩
  · have hgt := (hus.before cs t' us' hcs).2 ht'
    rw [depth_append, depth_cons, hts, hweight] at hts'
    omega

/-- What the tokens of a unit are. -/
lemma Reads.unit_cases (h : Reads g .unit ts f rest) :
    (∃ template name, ts = [.name template, .point, .name name] ∧ f = .location template name ∧
      rest = []) ∨
    (∃ us f₀, ts = .not :: us ∧ Reads g .unit us f₀ [] ∧ f = .not f₀ ∧ rest = []) ∨
    ∃ us f₀ rest₀, ts = .opening :: (us ++ [.closing]) ∧ Reads g .loose us f₀ rest₀ ∧
      f = g.join f₀ rest₀ ∧ rest = [] := by
  cases h with
  | location template name => exact .inl ⟨template, name, rfl, rfl, rfl⟩
  | not h => exact .inr (.inl ⟨_, _, rfl, h, rfl, rfl⟩)
  | parentheses h => exact .inr (.inr ⟨_, _, _, rfl, h, rfl, rfl⟩)

/-- A unit is no conjunction. -/
lemma not_reads_unit_and (h : Reads g .tight ts f []) :
    ¬ Reads g .unit (ts ++ .and :: us) f' rest' :=
  fun h' => by
    have hgt := (h'.nested.before ts .and us rfl).2 (.inl rfl)
    exact hgt.ne' h.nested.closed

/-- A conjunction has no loose operators between its sides. -/
lemma not_reads_tight_loose {operator : LooseOperator} (h : Reads g .loose ts f rest) :
    ¬ Reads g .tight (ts ++ .loose operator :: us) f' rest' :=
  fun h' => by
    have hgt := (h'.nested.before ts (.loose operator) us rfl).2 ⟨operator, rfl⟩
    exact hgt.ne' h.nested.closed

/-- Tokens are read as one phrase at most. -/
theorem Reads.unique (h : Reads g l ts f rest) (h' : Reads g l ts f' rest') :
    f = f' ∧ rest = rest' := by
  -- on one of the readings; that the tokens are the same leaves the other one no other rule
  induction h generalizing f' rest' with
  | location template name =>
    rcases h'.unit_cases with ⟨_, _, heq, rfl, rfl⟩ | ⟨_, _, heq, -⟩ | ⟨_, _, _, heq, -⟩
    · cases heq
      exact ⟨rfl, rfl⟩
    · cases heq
    · cases heq
  | not _ ih =>
    rcases h'.unit_cases with ⟨_, _, heq, -⟩ | ⟨_, _, heq, hread, rfl, rfl⟩ | ⟨_, _, _, heq, -⟩
    · cases heq
    · cases heq
      exact ⟨congrArg _ (ih hread).1, rfl⟩
    · cases heq
  | parentheses _ ih =>
    rcases h'.unit_cases with ⟨_, _, heq, -⟩ | ⟨_, _, heq, -⟩ | ⟨_, _, _, heq, hread, rfl, rfl⟩
    · cases heq
    · cases heq
    · rw [List.cons.injEq, List.append_cancel_right_eq] at heq
      obtain ⟨-, rfl⟩ := heq
      obtain ⟨rfl, rfl⟩ := ih hread
      exact ⟨rfl, rfl⟩
  | unit h ih =>
    cases h' with
    | unit h' => exact ih h'
    | and h₁ h₂ => exact absurd h (not_reads_unit_and h₁)
  | and h₁ h₂ ih₁ ih₂ =>
    -- of two readings of a conjunction the first parts end at the same token, because both are
    -- closed and nested
    generalize hts : _ ++ Token.and :: _ = ts at h'
    cases h' with
    | unit h' =>
      subst hts
      exact absurd h' (not_reads_unit_and h₁)
    | and h₁' h₂' =>
      obtain ⟨rfl, -, rfl⟩ := join_unique hts h₁.nested.closed h₁'.nested.closed h₂.nested
        h₂'.nested rfl rfl (.inl rfl) (.inl rfl)
      rw [(ih₁ h₁').1, (ih₂ h₂').1]
      exact ⟨rfl, rfl⟩
  | tight h ih =>
    cases h' with
    | tight h' => exact ih h'
    | loose operator h₁ h₂ => exact absurd h (not_reads_tight_loose h₁)
  | loose operator h₁ h₂ ih₁ ih₂ =>
    generalize hts : _ ++ Token.loose operator :: _ = ts at h'
    cases h' with
    | tight h' =>
      subst hts
      exact absurd h' (not_reads_tight_loose h₁)
    | loose operator' h₁' h₂' =>
      obtain ⟨rfl, hop, rfl⟩ := join_unique hts h₁.nested.closed h₁'.nested.closed h₂.nested
        h₂'.nested rfl rfl ⟨operator, rfl⟩ ⟨operator', rfl⟩
      cases hop
      obtain ⟨rfl, rfl⟩ := ih₁ h₁'
      rw [(ih₂ h₂').1]
      exact ⟨rfl, rfl⟩

/-! ### One sequence of tokens at most -/

/-- No two signs begin with the same character, and none with one that is blank or in a word. -/
lemma signs_apart : ∀ p ∈ signs, ∀ c ∈ p.1.head?, isBlank c = false ∧ isWord c = false ∧
    ∀ q ∈ signs, c ∈ q.1.head? → q = p := by
  have hall : signs.all (fun p => p.1.head?.all fun c => !isBlank c && !isWord c &&
      signs.all fun q => decide (q.1.head? = some c → q = p)) = true := by decide
  intro p hp c hc
  have hhead := List.all_eq_true.1 hall p hp
  rw [Option.mem_def.1 hc] at hhead
  simp only [Option.all_some, Bool.and_eq_true, Bool.not_eq_true', List.all_eq_true,
    decide_eq_true_eq] at hhead
  exact ⟨hhead.1.1, hhead.1.2, hhead.2⟩

lemma ne_nil_of_mem_signs : ∀ p ∈ signs, p.1 ≠ [] := by decide

lemma signs_end : ∀ p ∈ signs, p.1.getLast?.any isWord = false := by decide

lemma signs_not_blank : ∀ p ∈ signs, ∀ c ∈ p.1, isBlank c = false := by
  have hall : signs.all (fun p => p.1.all (!isBlank ·)) = true := by decide
  simpa using hall

lemma head?_append_of_ne_nil {x y : List Char} (hx : x ≠ []) (h : x ++ y = c :: cs) :
    c ∈ x.head? := by
  rw [Option.mem_def, ← List.head?_append_of_ne_nil x hx, h, List.head?_cons]

lemma isBlank_of_sign (hsign : (s, t) ∈ signs) (h : s ++ cs' = c :: cs) : isBlank c = false :=
  (signs_apart _ hsign c (head?_append_of_ne_nil (ne_nil_of_mem_signs _ hsign) h)).1

lemma isWord_of_sign (hsign : (s, t) ∈ signs) (h : s ++ cs' = c :: cs) : isWord c = false :=
  (signs_apart _ hsign c (head?_append_of_ne_nil (ne_nil_of_mem_signs _ hsign) h)).2.1

lemma isWord_of_word (hne : w ≠ []) (hword : ∀ c ∈ w, isWord c = true) (h : w ++ cs' = c :: cs) :
    isWord c = true :=
  hword c (List.mem_of_mem_head? (head?_append_of_ne_nil hne h))

/-- A sign is no beginning of a word. -/
lemma append_ne_of_sign (hsign : (s, t) ∈ signs) (hne : w ≠ []) (hword : ∀ c ∈ w, isWord c = true) :
    s ++ cs ≠ w ++ cs' := by
  obtain ⟨c, r, rfl⟩ := List.exists_cons_of_ne_nil hne
  intro h
  cases (isWord_of_sign hsign h).symm.trans (hword c List.mem_cons_self)

lemma Lexes.of_blank (hblank : isBlank c = true) (h : Lexes (c :: cs) ts) : Lexes cs ts := by
  generalize hx : c :: cs = x at h
  cases h with
  | nil => cases hx
  | blank _ h =>
    cases hx
    exact h
  | sign hsign _ => cases (isBlank_of_sign hsign hx.symm).symm.trans hblank
  | word hne hword _ _ =>
    cases (isBlank_of_isWord (isWord_of_word hne hword hx.symm)).symm.trans hblank

lemma Lexes.of_sign (hsign : (s, t) ∈ signs) (h : Lexes (s ++ cs) ts) :
    ∃ ts', ts = t :: ts' ∧ Lexes cs ts' := by
  generalize hx : s ++ cs = x at h
  cases h with
  | nil => exact absurd (List.append_eq_nil_iff.1 hx).1 (ne_nil_of_mem_signs _ hsign)
  | blank hblank _ => cases (isBlank_of_sign hsign hx).symm.trans hblank
  | @sign s' _ _ ts' hsign' h =>
    obtain ⟨c, r, rfl⟩ := List.exists_cons_of_ne_nil (ne_nil_of_mem_signs _ hsign')
    have hc := head?_append_of_ne_nil (ne_nil_of_mem_signs _ hsign) hx
    obtain ⟨rfl, rfl⟩ := Prod.mk.inj ((signs_apart _ hsign c hc).2.2 _ hsign' rfl)
    exact ⟨ts', rfl, List.append_cancel_left hx ▸ h⟩
  | word hne hword _ _ => exact absurd hx (append_ne_of_sign hsign hne hword)

lemma Lexes.of_word (hne : w ≠ []) (hword : ∀ c ∈ w, isWord c = true)
    (hend : ∀ c ∈ cs.head?, isWord c = false) (h : Lexes (w ++ cs) ts) :
    ∃ ts', ts = .ofWord w :: ts' ∧ Lexes cs ts' := by
  generalize hx : w ++ cs = x at h
  cases h with
  | nil => exact absurd (List.append_eq_nil_iff.1 hx).1 hne
  | blank hblank _ => cases (isBlank_of_isWord (isWord_of_word hne hword hx)).symm.trans hblank
  | sign hsign _ => exact absurd hx.symm (append_ne_of_sign hsign hne hword)
  | @word _ _ ts' _ hword' hend' h =>
    have hw := congrArg (List.takeWhile isWord) hx
    have hcs := congrArg (List.dropWhile isWord) hx
    rw [takeWhile_append hword hend, takeWhile_append hword' hend'] at hw
    rw [dropWhile_append hword hend, dropWhile_append hword' hend'] at hcs
    exact ⟨ts', hw ▸ rfl, hcs ▸ h⟩

lemma Lexes.eq_nil (h : Lexes [] ts) : ts = [] := by
  generalize hx : [] = x at h
  cases h with
  | nil => rfl
  | blank => cases hx
  | sign hsign => exact absurd (List.append_eq_nil_iff.1 hx.symm).1 (ne_nil_of_mem_signs _ hsign)
  | word hne => exact absurd (List.append_eq_nil_iff.1 hx.symm).1 hne

/-- A text is one sequence of tokens at most. -/
theorem Lexes.unique (h : Lexes cs ts) (h' : Lexes cs ts') : ts = ts' := by
  induction h generalizing ts' with
  | nil => exact h'.eq_nil.symm
  | blank hblank _ ih => exact ih (h'.of_blank hblank)
  | sign hsign _ ih =>
    obtain ⟨us, rfl, hrest⟩ := h'.of_sign hsign
    rw [ih hrest]
  | word hne hword hend _ ih =>
    obtain ⟨us, rfl, hrest⟩ := h'.of_word hne hword hend
    rw [ih hrest]

/-- A text says one thing at most. -/
theorem Says.unique (h : Says g cs f) (h' : Says g cs f') : f = f' := by
  obtain ⟨ts, f₀, rest, hlex, hread, rfl⟩ := h
  obtain ⟨ts', f₀', rest', hlex', hread', rfl⟩ := h'
  obtain rfl := hlex.unique hlex'
  obtain ⟨rfl, rfl⟩ := hread.unique hread'
  rfl

/-! ### Parts of a text -/

/-- A text may follow another one if it does not begin in the middle of a word. -/
lemma Lexes.append (h : Lexes s ts) (h' : Lexes cs us) (hhead : ∀ c ∈ cs.head?, isWord c = false) :
    Lexes (s ++ cs) (ts ++ us) := by
  induction h with
  | nil => exact h'
  | blank hblank _ ih => exact .blank hblank ih
  | sign hsign _ ih =>
    rw [List.append_assoc]
    exact .sign hsign ih
  | @word w s ts hne hword hend _ ih =>
    rw [List.append_assoc]
    refine .word hne hword (fun c hc => ?_) ih
    cases s with
    | nil => exact hhead c hc
    | cons x s => exact hend c hc

/-- A blank at the end of a text stands behind every part that holds no blank. -/
lemma exists_of_append_blank (hs : ∀ x ∈ s, isBlank x = false) (hblank : isBlank c = true)
    (h : s ++ cs' = cs ++ [c]) : ∃ r, cs' = r ++ [c] ∧ cs = s ++ r := by
  rcases List.append_eq_append_iff.1 h with ⟨r, rfl, rfl⟩ | ⟨r, rfl, hr⟩
  · exact ⟨r, rfl, rfl⟩
  · cases r with
    | nil => exact ⟨[], hr.symm, by simp⟩
    | cons x r =>
      obtain ⟨rfl, -⟩ := List.cons.inj hr
      cases (hs c (List.mem_append_right _ List.mem_cons_self)).symm.trans hblank

lemma Lexes.of_append_blank (hblank : isBlank c = true) (h : Lexes (cs ++ [c]) ts) :
    Lexes cs ts := by
  -- on the lexing of the longer text: the blank at its end belongs to no token
  generalize hx : cs ++ [c] = x at h
  induction h generalizing cs with
  | nil => exact absurd hx (by simp)
  | @blank b cs' ts hb h ih =>
    cases cs with
    | nil =>
      obtain ⟨-, rfl⟩ := List.cons.inj hx
      exact h
    | cons a cs =>
      obtain ⟨rfl, rfl⟩ := List.cons.inj hx
      exact .blank hb (ih rfl)
  | sign hsign _ ih =>
    obtain ⟨r, rfl, rfl⟩ := exists_of_append_blank (signs_not_blank _ hsign) hblank hx.symm
    exact .sign hsign (ih rfl)
  | word hne hword hend _ ih =>
    have hnot_blank := fun x hx => isBlank_of_isWord (hword x hx)
    obtain ⟨r, rfl, rfl⟩ := exists_of_append_blank hnot_blank hblank hx.symm
    refine .word hne hword (fun x hx => hend x ?_) (ih rfl)
    rw [List.head?_append, Option.mem_def.1 hx]
    rfl

lemma Lexes.trimEndChars (h : Lexes cs ts) : Lexes (trimEndChars cs) ts := by
  induction cs using List.reverseRecOn with
  | nil => exact h
  | append_singleton cs c ih =>
    rw [Text.trimEndChars, List.reverse_concat]
    by_cases hblank : isBlank c = true
    · rw [List.dropWhile_cons_of_pos hblank]
      exact ih (h.of_append_blank hblank)
    · rw [List.dropWhile_cons_of_neg hblank, List.reverse_cons, List.reverse_reverse]
      exact h

lemma Lexes.trimChars (h : Lexes cs ts) : Lexes (trimChars cs) ts := by
  refine Lexes.trimEndChars ?_
  induction cs with
  | nil => exact h
  | cons c cs ih =>
    by_cases hblank : isBlank c = true
    · rw [List.dropWhile_cons_of_pos hblank]
      exact ih (h.of_blank hblank)
    · rwa [List.dropWhile_cons_of_neg hblank]

end TimedPatterns.Query
