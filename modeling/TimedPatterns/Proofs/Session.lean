import Mathlib.Tactic
import TimedPatterns.Artifacts

/-!
# Sessions, step by step

A session takes a world to a result and a world, and one session after another is carried out in
the world that the first one leaves. These are the equations by which a session is followed
through its steps.

A family of files does not look at the result of what is done with it. So it hands on every fact
that the results have, and a change of the results can be made inside or outside of it.
-/

namespace TimedPatterns

namespace Session

variable {α β : Type} (w : World)

/-! ### Steps -/

@[simp] lemma pure_apply (a : α) : (pure a : Session α) w = (a, w) := rfl

@[simp] lemma bind_apply (x : Session α) (f : α → Session β) :
    (x >>= f) w = f (x w).1 (x w).2 := rfl

@[simp] lemma map_apply (f : α → β) (x : Session α) : (f <$> x) w = (f (x w).1, (x w).2) := rfl

lemma logged_bind_apply {Log : Type} (x : StateT Log Session α) (f : α → StateT Log Session β)
    (log : Log) : (x >>= f) log w = f (x log w).1.1 (x log w).1.2 (x log w).2 := rfl

lemma logged_pure_apply {Log : Type} (a : α) (log : Log) :
    (pure a : StateT Log Session α) log w = ((a, log), w) := rfl

lemma readText_apply (path : String) : readText path w = (w.files.readText path, w) := rfl

lemma writeText_apply (path text : String) :
    writeText path text w =
      match w.files.write path (.text text) with
      | .ok files => (.ok (), { w with files })
      | .error error => (.error error, w) := rfl

lemma runChecked_apply (command : Command) (limit : Option Duration) :
    runChecked command limit w =
      ((run command limit w).1.bind (·.check command.line), (run command limit w).2) := by
  simp only [runChecked, bind_apply]
  rcases run command limit w with ⟨error | output, w'⟩ <;> rfl

/-! ### Lists -/

/-- The results of a list stand in the order of the list. -/
lemma map_mapM {γ : Type} (f : α → Session β) (g : β → γ) (k : α → γ)
    (h : ∀ a w, g (f a w).1 = k a) (l : List α) : (l.mapM f w).1.map g = l.map k := by
  induction l generalizing w with
  | nil => rfl
  | cons a l ih =>
    rw [List.mapM_cons]
    simp only [bind_apply, pure_apply, List.map_cons, h, ih]

lemma length_mapM (f : α → Session β) (l : List α) : (l.mapM f w).1.length = l.length := by
  have hmap := map_mapM w f (fun _ => ()) (fun _ => ()) (fun _ _ => rfl) l
  simpa using congrArg List.length hmap

/-- A change of the results can be made while a list is worked off or afterwards. -/
lemma mapM_map_right {γ : Type} (f : α → Session β) (g : β → γ) (l : List α) :
    l.mapM (fun a => g <$> f a) w = (List.map g <$> l.mapM f) w := by
  induction l generalizing w with
  | nil => rfl
  | cons a l ih =>
    rw [List.mapM_cons, List.mapM_cons]
    simp only [bind_apply, pure_apply, map_apply, ih, List.map_cons]

end Session

/-! ### Families of files -/

namespace Artifacts

variable {ε α β : Type} {hold : Bool} {directory stem : String} {onError : SystemError → ε}

lemma within_apply (use : Artifacts → Session (Except ε α)) (w : World) :
    within hold directory stem onError use w =
      match create hold directory stem w with
      | (.error error, w') => (.error (onError error), w')
      | (.ok a, w') => ((use a w').1, (a.release (use a w').2).2) := by
  simp only [within, Session.bind_apply]
  rcases create hold directory stem w with ⟨error | a, w'⟩ <;> rfl

/-- What holds of every use of a family, and if there is no family, holds of the whole. -/
lemma of_within {P : Except ε α → Prop} {use : Artifacts → Session (Except ε α)}
    (herror : ∀ error, P (.error (onError error))) (huse : ∀ a w, P (use a w).1) (w : World) :
    P (within hold directory stem onError use w).1 := by
  rw [within_apply]
  rcases create hold directory stem w with ⟨error | a, w'⟩
  · exact herror error
  · exact huse a w'

/-- A change of the results can be made inside or outside of a family. -/
lemma within_map {f : α → β} {use : Artifacts → Session (Except ε α)}
    {use' : Artifacts → Session (Except ε β)}
    (huse : ∀ a w, use' a w = (Except.map f <$> use a) w) (w : World) :
    within hold directory stem onError use' w =
      (Except.map f <$> within hold directory stem onError use) w := by
  rw [Session.map_apply, within_apply, within_apply]
  rcases create hold directory stem w with ⟨error | a, w'⟩
  · rfl
  · simp only [huse, Session.map_apply]

end Artifacts

end TimedPatterns
