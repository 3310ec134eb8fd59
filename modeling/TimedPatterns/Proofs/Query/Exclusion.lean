import TimedPatterns.Proofs.Query.Formula

/-!
# Exclusions of a query

A query from which monitors are excluded asks for the formula that it asked for, and for each of the
monitors, in their order, that it is not in its `pass` location. This is so for every text of the
formula and however loose operators are grouped.

The conjunctions that are added bind tighter than a loose operator of the formula, so they apply to
all of it only if no such operator stands outside of parentheses. Either the formula is in
parentheses, or none of its tokens is a loose operator (`Lexes.isLooseAfter`).
-/

namespace TimedPatterns.Query

open Text

variable {g : Grouping} {ts : List Token} {f f₀ : Formula}
  {rest : List (LooseOperator × Formula)} {before : Option Char} {cs xs ys w : List Char}

/-! ### What a query asks -/

/-- The query asks whether a state is reachable in which the formula holds. -/
def Asks (q : Query) (g : Grouping) (f : Formula) : Prop :=
  ∃ cs, q.text.toList = "E<>".toList ++ cs ∧ Says g cs f

/-- A word that is no operator. -/
structure IsName (name : String) : Prop where
  ne_nil : name.toList ≠ []
  word : ∀ c ∈ name.toList, isWord c = true
  not_operator : name ∉ ["and", "or", "imply"]

/-- The formula, and no monitor in its `pass` location. -/
def Formula.excluding (f : Formula) (monitors : List String) : Formula :=
  monitors.foldl (fun f monitor => .and f (.not (.location monitor "pass"))) f

/-- It holds where the formula does and no monitor is in its `pass` location. -/
theorem Formula.holds_excluding (stands : String → String → Prop) (f : Formula)
    (monitors : List String) :
    (f.excluding monitors).Holds stands ↔
      f.Holds stands ∧ ∀ monitor ∈ monitors, ¬ stands monitor "pass" := by
  induction monitors generalizing f with
  | nil => simp [Formula.excluding]
  | cons monitor monitors ih =>
    rw [Formula.excluding, List.foldl_cons, ← Formula.excluding, ih, Formula.Holds, Formula.Holds,
      Formula.Holds, List.forall_mem_cons, and_assoc]

lemma IsName.ofWord_eq {name : String} (h : IsName name) :
    Token.ofWord name.toList = .name name := by
  have hne : ∀ keyword ∈ ["and", "or", "imply"], name.toList ≠ keyword.toList :=
    fun keyword hkeyword heq => h.not_operator (String.toList_inj.1 heq ▸ hkeyword)
  have hand : name.toList ≠ ['a', 'n', 'd'] := hne "and" (by simp)
  have hor : name.toList ≠ ['o', 'r'] := hne "or" (by simp)
  have himply : name.toList ≠ ['i', 'm', 'p', 'l', 'y'] := hne "imply" (by simp)
  rw [Token.ofWord, if_neg hand, if_neg hor, if_neg himply, String.ofList_toList]

/-! ### Loose operators -/

lemma isLooseAfter_cons {c : Char} (h : isLooseAfter (some c) cs = true) :
    isLooseAfter before (c :: cs) = true := by
  rw [isLooseAfter, h, Bool.or_true]

lemma getLast?_or (hne : xs ≠ []) (before : Option Char) : xs.getLast?.or before = xs.getLast? := by
  rw [List.getLast?_eq_some_getLast hne, Option.some_or]

/-- An operator that stands behind a text stands in the whole. -/
lemma isLooseAfter_append (h : isLooseAfter (xs.getLast?.or before) ys = true) :
    isLooseAfter before (xs ++ ys) = true := by
  induction xs generalizing before with
  | nil => exact h
  | cons x xs ih =>
    refine isLooseAfter_cons (ih ?_)
    have hlast : xs.getLast?.or (some x) = (x :: xs).getLast?.or before := by
      rw [List.getLast?_cons]
      cases xs.getLast? <;> rfl
    rwa [hlast]

/-- A word stands between boundaries if no word character is on either side of it. -/
lemma wordAt_append (hne : w ≠ []) (hword : ∀ c ∈ w, isWord c = true)
    (hbefore : before.any isWord = false) (hend : ∀ c ∈ cs.head?, isWord c = false) :
    wordAt w before (w ++ cs) = true := by
  obtain ⟨c, w, rfl⟩ := List.exists_cons_of_ne_nil hne
  have hfirst : isWord c = true := hword c List.mem_cons_self
  have hlast : (c :: w).getLast?.any isWord = true := by
    rw [List.getLast?_eq_some_getLast hne]
    exact hword _ (List.getLast_mem hne)
  have hrest : cs.head?.any isWord = false := by
    cases cs with
    | nil => rfl
    | cons x cs => exact hend x rfl
  rw [wordAt, dropPrefix?_eq_some_iff.2 rfl]
  simp [isBoundary, hbefore, hfirst, hlast, hrest]

lemma isLooseAfter_bars (before : Option Char) (cs : List Char) :
    isLooseAfter before (['|', '|'] ++ cs) = true := by
  have hdrop : dropPrefix? ['|', '|'] ('|' :: '|' :: cs) = some cs := dropPrefix?_eq_some_iff.2 rfl
  rw [List.cons_append, List.cons_append, List.nil_append, isLooseAfter, hdrop]
  rfl

/-- A word that is a loose operator occurs. -/
lemma isLooseAfter_word {operator : LooseOperator} (hw : Token.ofWord w = .loose operator)
    (hne : w ≠ []) (hword : ∀ c ∈ w, isWord c = true)
    (hbefore : before.any isWord = false) (hend : ∀ c ∈ cs.head?, isWord c = false) :
    isLooseAfter before (w ++ cs) = true := by
  have hat := wordAt_append hne hword hbefore hend
  rw [Token.ofWord] at hw
  split_ifs at hw with hand hor himply
  · subst hor
    rw [List.cons_append] at hat ⊢
    rw [isLooseAfter, hat, Bool.or_true, Bool.true_or, Bool.true_or]
  · subst himply
    rw [List.cons_append] at hat ⊢
    rw [isLooseAfter, hat, Bool.or_true, Bool.true_or]

/-- Word characters do not stand on both sides of a place: no word is cut there. -/
def Uncut (before : Option Char) (cs : List Char) : Prop :=
  before.any isWord = true → ∀ c ∈ cs.head?, isWord c = false

lemma uncut_of_not_word (h : before.any isWord = false) (cs : List Char) : Uncut before cs :=
  fun hword => absurd hword (by simp [h])

/-- Where a loose operator is among the tokens, one occurs in the text. -/
lemma Lexes.isLooseAfter {operator : LooseOperator} (h : Lexes cs ts) (huncut : Uncut before cs)
    (hmem : .loose operator ∈ ts) : isLooseAfter before cs = true := by
  -- no word is cut behind a blank, a sign or a word, so the boundaries are those of the words
  induction h generalizing before with
  | nil => exact absurd hmem List.not_mem_nil
  | @blank c cs ts hblank _ ih =>
    refine isLooseAfter_cons (ih (uncut_of_not_word ?_ cs) hmem)
    by_contra hword
    cases (isBlank_of_isWord (Bool.eq_true_of_not_eq_false hword)).symm.trans hblank
  | @sign s cs t ts hsign _ ih =>
    rcases List.mem_cons.1 hmem with rfl | hmem
    · obtain ⟨rfl, -⟩ : s = ['|', '|'] ∧ operator = .bars := by simpa [signs] using hsign
      exact isLooseAfter_bars before cs
    · refine isLooseAfter_append (ih ?_ hmem)
      rw [getLast?_or (ne_nil_of_mem_signs _ hsign)]
      exact uncut_of_not_word (signs_end _ hsign) cs
  | @word w cs ts hne hword hend _ ih =>
    rcases List.mem_cons.1 hmem with hw | hmem
    · refine isLooseAfter_word hw.symm hne hword ?_ hend
      by_contra hbefore
      obtain ⟨c, w, rfl⟩ := List.exists_cons_of_ne_nil hne
      have hfirst := huncut (Bool.eq_true_of_not_eq_false hbefore) c rfl
      cases hfirst.symm.trans (hword c List.mem_cons_self)
    · exact isLooseAfter_append (ih (fun _ => hend) hmem)

/-- A formula without loose operators holds together as a conjunction. -/
lemma Reads.tight_of_forall (h : Reads g .loose ts f rest)
    (hts : ∀ operator, Token.loose operator ∉ ts) : Reads g .tight ts f [] ∧ rest = [] := by
  cases h with
  | tight h => exact ⟨h, rfl⟩
  | loose operator _ _ => exact absurd (by simp) (hts operator)

/-! ### The text of the formula -/

/-- The formula of a query is the text behind `E<>`. -/
lemma formula?_raw (text : String) :
    (raw ("E<> " ++ text)).formula? = some (trimChars (trimEndChars (' ' :: text.toList))) := by
  have htext : ("E<> " ++ text).toList = "E<>".toList ++ ' ' :: text.toList := by
    rw [String.toList_append]
    rfl
  have htrim : trimChars ("E<>".toList ++ ' ' :: text.toList) =
      "E<>".toList ++ trimEndChars (' ' :: text.toList) := by
    rw [trimChars, dropWhile_eq_self (by simp [isBlank]), trimEndChars_append (by simp [isBlank])]
  have hdrop : dropPrefix? "E<>".toList ("E<>".toList ++ trimEndChars (' ' :: text.toList)) =
      some (trimEndChars (' ' :: text.toList)) := dropPrefix?_eq_some_iff.2 rfl
  simp only [formula?, raw, trim, htext, htrim, String.toList_ofList, hdrop, Option.map_some]

/-! ### Excluded monitors -/

lemma Lexes.location {template name : String} (htemplate : IsName template) (hname : IsName name)
    (hend : ∀ c ∈ cs.head?, isWord c = false) (hlex : Lexes cs ts) :
    Lexes (template.toList ++ (['.'] ++ (name.toList ++ cs)))
      (.name template :: .point :: .name name :: ts) := by
  rw [← htemplate.ofWord_eq, ← hname.ofWord_eq]
  have hrest : Lexes (name.toList ++ cs) (.ofWord name.toList :: ts) :=
    .word hname.ne_nil hname.word hend hlex
  exact .word htemplate.ne_nil htemplate.word (by simp [isWord, isAsciiWord])
    (.sign (by simp [signs]) hrest)

/-- A text and an exclusion behind it. -/
lemma Lexes.exclusion {monitor : String} (h : IsName monitor) (hlex : Lexes cs ts) :
    Lexes (cs ++ (exclusion monitor).toList)
      (ts ++ [.and, .not, .name monitor, .point, .name "pass"]) := by
  have hpass : IsName "pass" := ⟨by simp, by simp [isWord, isAsciiWord], by simp⟩
  have hlocation := Lexes.location h hpass (by simp) .nil
  have hnot := Lexes.sign (s := ['!']) (t := .not) (by simp [signs]) hlocation
  have hand := Lexes.sign (s := ['&', '&']) (t := .and) (by simp [signs])
    (.blank (c := ' ') rfl hnot)
  have htext : (Query.exclusion monitor).toList = ' ' :: (['&', '&'] ++ ' ' :: (['!'] ++
      (monitor.toList ++ (['.'] ++ ("pass".toList ++ []))))) := by
    simp [Query.exclusion, toString]
  rw [htext]
  exact hlex.append (.blank (c := ' ') rfl hand) (by simp [isWord, isAsciiWord])

/-- A conjunction with the exclusions behind it. -/
lemma exists_exclusions {monitors : List String} (hnames : ∀ monitor ∈ monitors, IsName monitor)
    (hlex : Lexes cs ts) (hread : Reads g .tight ts f []) :
    ∃ us, Lexes (cs ++ (String.join (monitors.map exclusion)).toList) us ∧
      Reads g .tight us (f.excluding monitors) [] := by
  induction monitors generalizing cs ts f with
  | nil =>
    refine ⟨ts, ?_, hread⟩
    simpa using hlex
  | cons monitor monitors ih =>
    obtain ⟨hname, hnames⟩ := List.forall_mem_cons.1 hnames
    obtain ⟨us, hlex, hread⟩ := ih hnames (hlex.exclusion hname)
      (hread.and (.not (.location monitor "pass")))
    refine ⟨us, ?_, hread⟩
    rwa [List.map_cons, String.join_cons, String.toList_append, ← List.append_assoc]

/-! ### Excluding -/

/-- A formula, in parentheses if a loose operator occurs in it, holds together as a conjunction. -/
lemma exists_tight (hlex : Lexes cs ts) (hread : Reads g .loose ts f₀ rest) :
    ∃ us, Lexes (if isLoose cs then '(' :: (cs ++ [')']) else cs) us ∧
      Reads g .tight us (g.join f₀ rest) [] := by
  split_ifs with hloose
  · have hclosing : Lexes ([')'] ++ []) [.closing] := .sign (by simp [signs]) .nil
    have hbody := hlex.append hclosing (by simp [isWord, isAsciiWord])
    exact ⟨_, .sign (s := ['(']) (by simp [signs]) hbody, .unit (.parentheses hread)⟩
  · have hnone : ∀ operator, Token.loose operator ∉ ts := fun operator hmem =>
      hloose (hlex.isLooseAfter (uncut_of_not_word rfl cs) hmem)
    obtain ⟨htight, rfl⟩ := hread.tight_of_forall hnone
    rw [g.join_nil]
    exact ⟨ts, hlex, htight⟩

/-- The text of the query that comes out. -/
lemma excluding_eq (q : Query) {monitors : List String} (hne : monitors ≠ []) :
    q.excluding monitors = q.formula?.map fun formula =>
      ⟨String.ofList ("E<> ".toList ++
        (if isLoose formula then '(' :: (formula ++ [')']) else formula) ++
          (String.join (monitors.map exclusion)).toList)⟩ := by
  obtain ⟨monitor, monitors, rfl⟩ := List.exists_cons_of_ne_nil hne
  refine congrArg (Option.map · q.formula?) (funext fun formula => congrArg Query.mk ?_)
  rw [String.toList_ofList, ← String.toList_inj]
  split_ifs <;> simp [toString]

/-- The query that excludes the monitors asks for what the formula says, and for the monitors. -/
lemma exists_excluding {text : String} {monitors : List String} (htext : Says g text.toList f)
    (hne : monitors ≠ []) (hnames : ∀ monitor ∈ monitors, IsName monitor) :
    ∃ q, (raw ("E<> " ++ text)).excluding monitors = some q ∧ q.Asks g (f.excluding monitors) := by
  obtain ⟨ts, f₀, rest, hlex, hread, rfl⟩ := htext
  -- trimming takes nothing but blanks from the text, and those are no tokens
  have hformula : Lexes (trimChars (trimEndChars (' ' :: text.toList))) ts :=
    (Lexes.blank rfl hlex).trimEndChars.trimChars
  obtain ⟨us, hlex, hread⟩ := exists_tight hformula hread
  obtain ⟨vs, hlex, hread⟩ := exists_exclusions hnames hlex hread
  rw [excluding_eq _ hne, formula?_raw, Option.map_some]
  refine ⟨_, rfl, _, ?_, vs, _, [], .blank (c := ' ') rfl hlex, .tight hread, ?_⟩
  · rw [String.toList_ofList]
    simp
  · rw [g.join_nil]

lemma Asks.unique {q : Query} {f' : Formula} (h : q.Asks g f) (h' : q.Asks g f') : f = f' := by
  obtain ⟨cs, hcs, htext⟩ := h
  obtain ⟨cs', hcs', htext'⟩ := h'
  obtain rfl := List.append_cancel_left (hcs.symm.trans hcs')
  exact htext.unique htext'

/-- Excluding monitors keeps what a query asks: for every text of a formula, the query that comes
out asks for the formula and that no monitor is in its `pass` location, and for nothing else. There
is none exactly if the query does not ask whether a state is reachable. -/
theorem excluding_asks :
    (∀ (g : Grouping) (text : String) (f : Formula) (monitors : List String),
      Says g text.toList f → monitors ≠ [] → (∀ monitor ∈ monitors, IsName monitor) →
        ∃ q, (raw ("E<> " ++ text)).excluding monitors = some q ∧
          ∀ f', q.Asks g f' ↔ f' = f.excluding monitors) ∧
    ∀ (q : Query) (monitors : List String), monitors ≠ [] →
      (q.excluding monitors = none ↔ ¬ "E<>".toList <+: q.text.toList) := by
  refine ⟨fun g text f monitors htext hne hnames => ?_, fun q monitors hne => ?_⟩
  · obtain ⟨q, hq, hasks⟩ := exists_excluding htext hne hnames
    refine ⟨q, hq, fun f' => ⟨fun h => h.unique hasks, ?_⟩⟩
    rintro rfl
    exact hasks
  · rw [excluding_eq q hne, Option.map_eq_none_iff, formula?, Option.map_eq_none_iff,
      dropPrefix?_eq_none_iff]

/-- Loose operators grouped from the left. -/
def Grouping.fromLeft : Grouping where
  join f rest := rest.foldl (fun f next => .loose next.1 f next.2) f
  join_nil _ := rfl

theorem excluding_asks_sample :
    (∃ q, (raw ("E<> " ++ "Door.a or P.b")).excluding ["M"] = some q ∧
      ∀ f, q.Asks Grouping.fromLeft f ↔
        f = .and (.loose .or (.location "Door" "a") (.location "P" "b"))
          (.not (.location "M" "pass"))) ∧
    (raw "A[] P.a").excluding ["M"] = none := by
  have hnames : ∀ name ∈ ["Door", "a", "P", "b", "M"], IsName name := by
    simp only [List.forall_mem_cons]
    refine ⟨?_, ?_, ?_, ?_, ?_, List.forall_mem_nil _⟩ <;>
      exact ⟨by simp, by simp [isWord, isAsciiWord], by simp⟩
  have hlast := Lexes.location (hnames "P" (by simp)) (hnames "b" (by simp)) (by simp) .nil
  have hor : Lexes (['o', 'r'] ++ ' ' :: _) (.loose .or :: _) :=
    .word (by simp) (by simp [isWord, isAsciiWord]) (by simp [isWord, isAsciiWord])
      (.blank rfl hlast)
  have hlex := Lexes.location (hnames "Door" (by simp)) (hnames "a" (by simp))
    (by simp [isWord, isAsciiWord]) (.blank (c := ' ') rfl hor)
  have hread : Reads Grouping.fromLeft .loose [.name "Door", .point, .name "a", .loose .or,
      .name "P", .point, .name "b"] (.location "Door" "a") [(.or, .location "P" "b")] :=
    .loose .or (.tight (.unit (.location "Door" "a"))) (.unit (.location "P" "b"))
  refine ⟨excluding_asks.1 _ _ _ _ ⟨_, _, _, hlex, hread, rfl⟩ (by simp)
    (by simpa using hnames "M" (by simp)), ?_⟩
  exact (excluding_asks.2 _ _ (by simp)).2 (by decide)

end TimedPatterns.Query
