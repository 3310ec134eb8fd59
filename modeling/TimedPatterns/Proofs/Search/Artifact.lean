import TimedPatterns.Proofs.Search.Rendering

/-!
# The files of a search

The names of the files that a search needs on its way: the instrumented model of a round; the query
of a run, its output and its witness; and the compiled model and the rendering by which a witness is
extracted. Each name has the number of its family in it, and no two files have one name.
-/

namespace TimedPatterns

open Artifacts (tagOf)

namespace Search

/-! ### Names -/

/-- The files that are named after a witness: itself, and the two files of the family in which it is
rendered. -/
inductive TracePart where
  | witness
  | compiled (m : Nat)
  | rendering (m : Nat)
  deriving DecidableEq

/-- The files of a search. -/
inductive Artifact where
  | model (n : Nat)
  | query (n : Nat)
  | log (n : Nat)
  | trace (n : Nat) (kind : Diagnostic) (part : TracePart)
  deriving DecidableEq

/-- What stands behind the stem of a witness. -/
def TracePart.ending (s : Search) (processId : Nat) : TracePart → String
  | .witness => "." ++ s.settings.format.extension
  | .compiled m => "-" ++ toString processId ++ "-" ++ toString m ++ ".if"
  | .rendering m => "-" ++ toString processId ++ "-" ++ toString m ++ ".txt"

namespace Artifact

/-- The first number in the name of a file. -/
def first : Artifact → Nat
  | .model n | .query n | .log n | .trace n _ _ => n

/-- The number of the family of a file. -/
def number : Artifact → Nat
  | .model n | .query n | .log n | .trace n _ .witness => n
  | .trace _ _ (.compiled m) | .trace _ _ (.rendering m) => m

def stem : Artifact → String
  | .model _ => "model"
  | .query _ | .log _ | .trace _ _ _ => "query"

/-- What stands in a name behind the first number. -/
def ending (s : Search) (processId : Nat) : Artifact → String
  | .model _ => "." ++ (Path.extension? s.model).getD "xml"
  | .query _ => ".q"
  | .log _ => ".log"
  | .trace _ kind part => "-t" ++ kind.value ++ "-1" ++ part.ending s processId

def name (s : Search) (processId : Nat) (key : Artifact) : String :=
  tagOf key.stem processId key.first ++ key.ending s processId

/-- No step of a search reads the output of a run again. -/
def IsRead : Artifact → Prop
  | .log _ => False
  | .model _ | .query _ | .trace _ _ _ => True

end Artifact

/-- How the files of a search are laid out, for at most the given number of families. -/
def layout (s : Search) (w : World) (count : Nat) : Layout Artifact where
  world := w
  directory := s.directory
  count := count
  name := Artifact.name s w.processId
  first := Artifact.first
  number := Artifact.number
  shared := Artifact.IsRead

variable {s : Search} {w : World} {processId count : Nat} {key key' : Artifact}
  {part part' : TracePart}

/-! ### Different files have different names -/

lemma TracePart.ending_injective : Function.Injective (TracePart.ending s processId) := by
  intro part part' h
  have hnumber {m n : Nat} {rest rest' : String} (hrest : rest.toList.head? = some '.')
      (hrest' : rest'.toList.head? = some '.')
      (h : tagOf "" processId m ++ rest = tagOf "" processId n ++ rest') : m = n ∧ rest = rest' :=
    Artifacts.tagOf_append_inj (by simp [hrest]) (by simp [hrest']) h
  cases part <;> cases part'
  case witness.witness => rfl
  case compiled.compiled m n => rw [(hnumber rfl rfl h).1]
  case rendering.rendering m n => rw [(hnumber rfl rfl h).1]
  case compiled.rendering m n => exact absurd (hnumber rfl rfl h).2 (by decide)
  case rendering.compiled m n => exact absurd (hnumber rfl rfl h).2 (by decide)
  all_goals
    have hlist := congrArg String.toList h
    simp [ending] at hlist

namespace Artifact

lemma isDigit_eq_false_of_head? (key : Artifact) :
    ∀ c ∈ (key.ending s processId).toList.head?, c.isDigit = false := by
  intro c hc
  cases key <;> simp [ending] at hc <;> subst hc <;> rfl

lemma ending_trace_inj {n : Nat} {kind kind' : Diagnostic}
    (h : ending s processId (.trace n kind part) = ending s processId (.trace n kind' part')) :
    kind = kind' ∧ part = part' := by
  have hlist := congrArg String.toList h
  have hparts : kind = kind' ∧
      (part.ending s processId).toList = (part'.ending s processId).toList := by
    cases kind <;> cases kind' <;> simp [ending, Diagnostic.value] at hlist <;> exact ⟨rfl, hlist⟩
  exact ⟨hparts.1, TracePart.ending_injective (String.toList_inj.1 hparts.2)⟩

lemma eq_of_ending_eq (hstem : key.stem = key'.stem) (hfirst : key.first = key'.first)
    (h : key.ending s processId = key'.ending s processId) : key = key' := by
  have hlist := congrArg String.toList h
  cases key <;> cases key' <;> simp only [first] at hfirst <;> subst hfirst
  case trace.trace =>
    obtain ⟨rfl, rfl⟩ := ending_trace_inj h
    rfl
  all_goals first | rfl | (simp [ending] at hlist; done) | simp [stem] at hstem

lemma stem_eq_or (key : Artifact) : key.stem = "model" ∨ key.stem = "query" := by
  cases key <;> simp [stem]

lemma name_injective : Function.Injective (Artifact.name s processId) := by
  intro key key' h
  have hstem : key.stem = key'.stem := by
    have hhead := congrArg (·.toList.head?) h
    simp only [name, Artifacts.tagOf_eq, String.toList_append] at hhead
    rcases stem_eq_or key with hkey | hkey <;> rcases stem_eq_or key' with hkey' | hkey' <;>
      rw [hkey, hkey'] at hhead ⊢ <;> simp at hhead
  rw [name, name, hstem] at h
  obtain ⟨hfirst, hending⟩ := Artifacts.tagOf_append_inj (isDigit_eq_false_of_head? key)
    (isDigit_eq_false_of_head? key') h
  exact eq_of_ending_eq hstem hfirst hending

lemma not_mem_ending (key : Artifact) : '/' ∉ (key.ending s processId).toList := by
  have hnumber := Artifacts.not_mem_toString_nat
  have hformat : '/' ∉ s.settings.format.extension.toList := by
    cases s.settings.format <;> decide
  have hkind (kind : Diagnostic) : '/' ∉ kind.value.toList := by cases kind <;> decide
  have hpart (part : TracePart) : '/' ∉ (part.ending s processId).toList := by
    cases part <;>
      simp only [TracePart.ending, String.toList_append, List.mem_append, not_or]
    · exact ⟨by decide, hformat⟩
    · exact ⟨⟨⟨⟨by decide, hnumber _⟩, by decide⟩, hnumber _⟩, by decide⟩
    · exact ⟨⟨⟨⟨by decide, hnumber _⟩, by decide⟩, hnumber _⟩, by decide⟩
  cases key with
  | model => simpa [ending] using Path.not_mem_extension s.model
  | query => simp [ending]
  | log => simp [ending]
  | trace n kind part => simpa [ending] using ⟨hkind kind, hpart part⟩

lemma isName (key : Artifact) : Path.IsName (key.name s processId) := by
  refine Artifacts.isName_tagOf_append ?_ (not_mem_ending key)
  rcases stem_eq_or key with hstem | hstem <;> rw [hstem] <;> decide

end Artifact

lemma layout_proper : (s.layout w count).Proper := ⟨Artifact.isName, Artifact.name_injective⟩

/-! ### Names of families -/

/-- The stem of the witness of a run. -/
def witnessStem (processId n : Nat) (kind : Diagnostic) : String :=
  tagOf "query" processId n ++ "-t" ++ kind.value ++ "-1"

lemma name_model (n : Nat) : Artifact.name s processId (.model n) =
    tagOf "model" processId n ++ "." ++ (Path.extension? s.model).getD "xml" :=
  (String.append_assoc ..).symm

lemma name_query (n : Nat) : Artifact.name s processId (.query n) =
    tagOf "query" processId n ++ "." ++ "q" := by
  rw [String.append_assoc]
  rfl

lemma name_log (n : Nat) : Artifact.name s processId (.log n) =
    tagOf "query" processId n ++ "." ++ "log" := by
  rw [String.append_assoc]
  rfl

lemma name_witness (n : Nat) (kind : Diagnostic) :
    Artifact.name s processId (.trace n kind .witness) =
      witnessStem processId n kind ++ "." ++ s.settings.format.extension := by
  simp only [Artifact.name, Artifact.ending, TracePart.ending, witnessStem, String.append_assoc]
  rfl

lemma name_compiled (n m : Nat) (kind : Diagnostic) :
    Artifact.name s processId (.trace n kind (.compiled m)) =
      tagOf (witnessStem processId n kind) processId m ++ "." ++ "if" := by
  simp only [Artifact.name, Artifact.ending, TracePart.ending, witnessStem, Artifacts.tagOf_eq,
    String.append_assoc]
  rfl

lemma name_rendering (n m : Nat) (kind : Diagnostic) :
    Artifact.name s processId (.trace n kind (.rendering m)) =
      tagOf (witnessStem processId n kind) processId m ++ "." ++ "txt" := by
  simp only [Artifact.name, Artifact.ending, TracePart.ending, witnessStem, Artifacts.tagOf_eq,
    String.append_assoc]
  rfl

end Search

end TimedPatterns
