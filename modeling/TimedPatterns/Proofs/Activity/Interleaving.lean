import TimedPatterns.Proofs.Activity.Naming
import TimedPatterns.Proofs.Activity.Search

/-!
# Searches and extractions in one process

The threads of a process search and extract in the same world. A schedule says which of them does
the next step. Whatever it says, each family of files gets a number of its own, because a step that
gives a number away leaves a larger counter behind. So all the paths that are given to the threads
lead to different files, and no two threads write to the same one.
-/

namespace TimedPatterns

/-- What a thread is started for: to find one pattern, to enumerate patterns, or to make a trace of
a witness. -/
inductive Work where
  | findOne (s : Search) (i : Inquiry)
  | findAll (s : Search) (i : Inquiry) (limit : Option ℕ) (rounds : ℕ)
  | trace (o : Extraction.Options) (model witness : String)

namespace Work

/-- What comes of the work. -/
def Result : Work → Type
  | findOne _ _ => Except SearchError Discovered
  | findAll _ _ _ _ => Option Answer
  | trace _ _ _ => Except TraceError Trace

/-- The work as a whole. -/
def session : (work : Work) → Session work.Result
  | findOne s i => s.findOne i
  | findAll s i limit rounds => s.findAll i limit rounds
  | trace o model witness => Extraction.trace o model witness

/-- The work in steps. -/
def activity : (work : Work) → Activity work.Result
  | findOne s i => Activity.findOne s i
  | findAll s i limit rounds => Activity.findAll s i limit rounds
  | trace o model witness => Activity.trace o model witness

lemma perform_activity (work : Work) : work.activity.perform = work.session := by
  cases work with
  | findOne s i => exact Activity.perform_findOne s i
  | findAll s i limit rounds => exact Activity.perform_findAll s i limit rounds
  | trace o model witness => exact Activity.perform_trace o model witness

lemma keepsTo_activity (work : Work) (given : List String) : work.activity.KeepsTo given := by
  cases work with
  | findOne s i => exact Activity.keepsTo_findOne s i
  | findAll s i limit rounds => exact Activity.keepsTo_findAll s i limit rounds
  | trace o model witness => exact Activity.keepsTo_trace o model witness

end Work

/-! ### Threads -/

/-- A thread: its work, and what is left of it. -/
structure Thread where
  work : Work
  rest : Activity work.Result

/-- What a thread did in a step: the thread, the paths that were given to it, and the paths of the
files that it wrote. -/
structure Thread.Event where
  thread : ℕ
  given : List String
  written : List String

namespace Thread

def start (work : Work) : Thread := ⟨work, work.activity⟩

/-- What threads do in a world, one step after the other. The schedule says which thread does the
next step. -/
def events : List ℕ → List Thread → World → List Event
  | [], _, _ => []
  | i :: schedule, threads, w =>
    match threads[i]? with
    | none => events schedule threads w
    | some t =>
      ⟨i, (t.rest.step w).1, t.rest.written⟩ ::
        events schedule (threads.set i ⟨t.work, (t.rest.step w).2.1⟩) (t.rest.step w).2.2

/-! ### Numbers -/

open Artifacts (LeadsTo tagOf)

/-- What a step does to the numbers: it leaves them and gives no path away, or it gives the files of
a family away that has the next number. -/
inductive Numbers (w : World) : List String → World → Prop
  | same {w' : World} (hprocess : w'.processId = w.processId) (htags : w'.tags = w.tags) :
      Numbers w [] w'
  | next {w' : World} {p : Purpose} {a : Artifacts} (hprocess : w'.processId = w.processId)
      (htags : w'.tags = w.tags + 1) (htag : a.tag = tagOf p.stem w.processId (w.tags + 1)) :
      Numbers w (p.paths a) w'

lemma numbers_perform (c : Call) (w : World) :
    Numbers w (c.given (c.perform w).1) (c.perform w).2 := by
  -- of all the calls, only the beginning of a family of artifacts takes a number
  cases c with
  | settle p =>
    show Numbers w [] (Artifacts.settle p.held p.directory w).2
    cases p.held with
    | true =>
      simp only [Artifacts.settle, if_true, Session.bind_apply, Session.pure_apply,
        Session.makeDirectories]
      exact .same rfl rfl
    | false =>
      simp only [Artifacts.settle, Bool.false_eq_true, if_false]
      unfold Artifacts.freshScope
      dsimp only
      split <;> exact .same rfl rfl
  | begin p directory => exact .next rfl rfl rfl
  | release a =>
    show Numbers w [] (a.release w).2
    simp only [Artifacts.release]
    split_ifs
    · exact .same rfl rfl
    · split <;> exact .same rfl rfl
  | read path => exact .same rfl rfl
  | write path text =>
    show Numbers w [] (Session.writeText path text w).2
    rw [Session.writeText_apply]
    split <;> exact .same rfl rfl
  | run command limit =>
    show Numbers w [] (Session.run command limit w).2
    rw [Session.run_apply, Session.start]
    split_ifs
    · exact .same rfl rfl
    · exact .same rfl rfl
    · split <;> exact .same rfl rfl

lemma numbers_step {α : Type} (x : Activity α) (w : World) :
    Numbers w (x.step w).1 (x.step w).2.2 := by
  cases x with
  | done a => exact .same rfl rfl
  | call c next => exact numbers_perform c w

/-- Whatever a schedule says, the files that are given away have numbers that have not been given
away before, and are different files. -/
lemma given_events (schedule : List ℕ) (threads : List Thread) (w : World) :
    (∀ path ∈ (events schedule threads w).flatMap Event.given,
        ∃ number, w.tags < number ∧ LeadsTo w.processId number path) ∧
      ((events schedule threads w).flatMap Event.given).Pairwise Path.Apart := by
  -- on the schedule, for all threads and worlds: a step gives its paths and leaves the rest of the
  -- schedule with a world in which later numbers are greater
  induction schedule generalizing threads w with
  | nil => exact ⟨by simp [events], List.Pairwise.nil⟩
  | cons i schedule ih =>
    unfold events
    cases threads[i]? with
    | none => exact ih threads w
    | some t =>
      have hnumbers := numbers_step t.rest w
      dsimp only
      rw [List.flatMap_cons]
      generalize t.rest.step w = stepped at hnumbers ⊢
      obtain ⟨given, rest, w'⟩ := stepped
      obtain ⟨hnew, hapart⟩ := ih (threads.set i ⟨t.work, rest⟩) w'
      dsimp only at hnumbers ⊢
      cases hnumbers with
      | same hprocess htags =>
        rw [hprocess, htags] at hnew
        exact ⟨hnew, hapart⟩
      | @next _ p a hprocess htags htag =>
        -- the paths of this family all have the number it took, and every path of the rest a
        -- greater one
        rw [hprocess, htags] at hnew
        refine ⟨List.forall_mem_append.2 ⟨fun path hpath => ?_, fun path hpath => ?_⟩, ?_⟩
        · exact ⟨w.tags + 1, Nat.lt_succ_self _, p.leadsTo_of_mem_paths htag hpath⟩
        · obtain ⟨number, hlt, hleads⟩ := hnew path hpath
          exact ⟨number, Nat.lt_of_succ_lt hlt, hleads⟩
        · refine List.pairwise_append.2 ⟨p.pairwise_apart_paths htag, hapart, ?_⟩
          intro path hpath path' hpath'
          obtain ⟨number, hlt, hleads⟩ := hnew path' hpath'
          exact (p.leadsTo_of_mem_paths htag hpath).apart hleads (Nat.ne_of_lt hlt)

/-! ### Where threads write -/

/-- Threads write nothing but files at the paths that are given to them, beside those that have been
given to each of them before. -/
def KeepTo (threads : List Thread) (given : ℕ → List String) : Prop :=
  ∀ (i : ℕ) (t : Thread), threads[i]? = some t → t.rest.KeepsTo (given i)

lemma keepTo_start (works : List Work) : KeepTo (works.map start) fun _ => [] := by
  intro i t ht
  obtain ⟨work, -, rfl⟩ := List.mem_map.1 (List.mem_of_getElem? ht)
  exact work.keepsTo_activity []

/-- What is given to a thread in a step is there for its next ones. -/
lemma KeepTo.step {threads : List Thread} {given : ℕ → List String} (h : KeepTo threads given)
    {i : ℕ} {t : Thread} (ht : threads[i]? = some t) (w : World) :
    t.rest.written ⊆ given i ∧ KeepTo (threads.set i ⟨t.work, (t.rest.step w).2.1⟩)
      (Function.update given i (given i ++ (t.rest.step w).1)) := by
  obtain ⟨hwritten, hrest⟩ := (h i t ht).step w
  refine ⟨hwritten, fun j t' ht' => ?_⟩
  rw [List.getElem?_set] at ht'
  split_ifs at ht' with hsame
  · obtain rfl := Option.some.inj ht'
    rw [← hsame, Function.update_self]
    exact hrest
  · rw [Function.update_of_ne (Ne.symm hsame)]
    exact h j t' ht'

/-- A thread writes nothing but files at paths that have been given to it before. -/
lemma exists_given_of_written {given : ℕ → List String} {schedule : List ℕ} {threads : List Thread}
    {w : World} (hkeep : KeepTo threads given) {before after : List Event} {e : Event}
    (hevents : events schedule threads w = before ++ e :: after) {path : String}
    (hpath : path ∈ e.written) :
    path ∈ given e.thread ∨ ∃ e' ∈ before, e'.thread = e.thread ∧ path ∈ e'.given := by
  induction schedule generalizing given threads w before with
  | nil => simp [events] at hevents
  | cons i schedule ih =>
    unfold events at hevents
    cases hthread : threads[i]? with
    | none =>
      rw [hthread] at hevents
      exact ih hkeep hevents
    | some t =>
      rw [hthread] at hevents
      obtain ⟨hwritten, hnext⟩ := hkeep.step hthread w
      cases before with
      | nil =>
        obtain ⟨rfl, -⟩ := List.cons.inj hevents
        exact .inl (hwritten hpath)
      | cons e' before =>
        obtain ⟨rfl, hafter⟩ := List.cons.inj hevents
        rcases ih hnext hafter with hgiven | ⟨e', he', hsame, hgiven⟩
        · -- it was given in this step, or before if the step is one of another thread
          rw [Function.update_apply] at hgiven
          split_ifs at hgiven with hsame
          · rcases List.mem_append.1 hgiven with hgiven | hgiven
            · exact .inl (hsame ▸ hgiven)
            · exact .inr ⟨_, List.mem_cons_self, hsame.symm, hgiven⟩
          · exact .inl hgiven
        · exact .inr ⟨e', List.mem_cons_of_mem _ he', hsame, hgiven⟩

/-- What is given to one thread is not given to another. -/
lemma apart_of_thread_ne {schedule : List ℕ} {threads : List Thread} {w : World} {e e' : Event}
    (he : e ∈ events schedule threads w) (he' : e' ∈ events schedule threads w)
    (hne : e.thread ≠ e'.thread) {path path' : String} (hpath : path ∈ e.given)
    (hpath' : path' ∈ e'.given) : Path.Apart path path' := by
  let R (e e' : Event) : Prop := ∀ path ∈ e.given, ∀ path' ∈ e'.given, Path.Apart path path'
  have hsymm : Std.Symm R := ⟨fun _ _ h path hpath path' hpath' => (h path' hpath' path hpath).symm⟩
  have hpairwise : (events schedule threads w).Pairwise R :=
    (List.pairwise_flatMap.1 (given_events schedule threads w).2).2
  have hevents : e ≠ e' := fun heq => hne (congrArg Event.thread heq)
  exact hpairwise.forall he he' hevents path hpath path' hpath'

/-- Searches and extractions that are carried out in one process never share a file, whatever the
schedule, their directories, the extensions of their models and the names of their witnesses are.
Step by step, each does what it does as a whole. All the paths that are given to them lead to
different files; and two of them never write to the same file. -/
theorem given_apart (works : List Work) (schedule : List ℕ) (w : World) :
    (∀ work ∈ works, ∀ w', ∃ n, Activity.advance^[n] (work.activity, w') =
        (.done (work.session w').1, (work.session w').2)) ∧
      ((events schedule (works.map start) w).flatMap Event.given).Pairwise Path.Apart ∧
      ∀ e ∈ events schedule (works.map start) w, ∀ e' ∈ events schedule (works.map start) w,
        e.thread ≠ e'.thread → ∀ path ∈ e.written, ∀ path' ∈ e'.written, Path.Apart path path' := by
  have hapart := (given_events schedule (works.map start) w).2
  -- what a thread writes was given to it before, so the paths written inherit the distance of the
  -- paths given
  have hgiven : ∀ e ∈ events schedule (works.map start) w, ∀ path ∈ e.written,
      ∃ e' ∈ events schedule (works.map start) w, e'.thread = e.thread ∧ path ∈ e'.given := by
    intro e he path hpath
    obtain ⟨before, after, hevents⟩ := List.append_of_mem he
    obtain hnone | ⟨e', he', hsame, hmem⟩ :=
      exists_given_of_written (keepTo_start works) hevents hpath
    · exact absurd hnone List.not_mem_nil
    · exact ⟨e', hevents ▸ List.mem_append_left _ he', hsame, hmem⟩
  refine ⟨fun work _ w' => ?_, hapart, fun e he e' he' hne path hpath path' hpath' => ?_⟩
  · rw [← work.perform_activity]
    exact work.activity.exists_iterate_advance w'
  · obtain ⟨d, hd, hthread, hmem⟩ := hgiven e he path hpath
    obtain ⟨d', hd', hthread', hmem'⟩ := hgiven e' he' path' hpath'
    rw [← hthread, ← hthread'] at hne
    exact apart_of_thread_ne hd hd' hne hmem hmem'

/-- A search asks for the first time while a witness is rendered whose name is that of the witness
that the search will ask for. -/
example :
    let s : Search :=
      { settings := ⟨"verifyta", "tracer", none, .xml⟩, model := "m.xml", hold := true }
    let threads := [start (.findOne s (.ofQuery "t" ⟨"E<> true"⟩ none)),
      start (.trace ⟨s.settings, "t", true⟩ "m.xml" "query-1-1-t1-1.xtr")]
    let w : World :=
      { files := ⟨[], []⟩, behaviour := fun _ _ _ _ => .error .notFound, processId := 1 }
    (events [0, 1, 0, 1] threads w).flatMap Event.given =
      ["./query-1-1.q", "./query-1-1.log", "./query-1-1-t1-1.xml",
        "./query-1-1-t1-1-1-2.if", "./query-1-1-t1-1-1-2.txt"] := by
  cbv

end Thread

end TimedPatterns
