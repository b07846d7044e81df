import MemoryTrace.Proofs.Memory.Unwinding
import MemoryTrace.Proofs.Session.Aside
import MemoryTrace.Proofs.Session.Success

namespace MemoryTrace

open Script

/-- What an observer makes of some steps. It is done at one of them, or has seen them all. -/
def watch {α : Type} (observe : Step → α → ForInStep α) : List Step → α → ForInStep α
  | [], seen => .yield seen
  | step :: rest, seen =>
    match observe step seen with
    | .yield seen => watch observe rest seen
    | .done seen => .done seen

/-- An observer that always goes on sees all steps. -/
theorem watch_of_continues {α : Type} {observe : Step → α → ForInStep α}
    (continues : ∀ step seen, ∃ more, observe step seen = .yield more) (steps : List Step) (seen : α) :
    ∃ last, watch observe steps seen = .yield last := by
  induction steps generalizing seen with
  | nil => exact ⟨seen, rfl⟩
  | cons step rest ih =>
    obtain ⟨more, goes_on⟩ := continues step seen
    rw [watch, goes_on]
    exact ih more

namespace Session

variable {s t : Session}

/-- Popping a block leaves the scope in memory, and may be worth a note. -/
theorem popBlock_eq_some (popped : s.popBlock = some t) :
    (∃ exit, s.memory.endScope? = some exit) ∧
      ∃ notes, t = { s with memory := (s.memory.perform .endScope).2, notes } := by
  obtain ⟨exit, left, rfl⟩ := Option.map_eq_some_iff.mp popped
  rw [Memory.perform_endScope left]
  exact ⟨⟨exit, left⟩, s.afterExit_eq exit⟩

/-- Without a block to pop there is no scope to leave. -/
theorem popBlock_eq_none (stays : s.popBlock = none) : s.memory.endScope? = none :=
  Option.map_eq_none_iff.mp stays

/-- Whether there is a block to pop or not, the scope is left in memory. -/
theorem leaveScope_eq (s : Session) :
    ∃ notes, s.leaveScope = { s with memory := (s.memory.perform .endScope).2, notes } := by
  unfold leaveScope
  split
  · rename_i exit left
    obtain ⟨notes, popped⟩ := s.afterExit_eq exit
    rw [popped, Memory.perform_endScope left]
    exact ⟨_, rfl⟩
  · rename_i stays
    refine ⟨s.notes, ?_⟩
    simp only [Memory.perform, stays]

/-- Popping blocks leaves as many scopes in memory. -/
theorem popBlocks_eq (count : Nat) (s : Session) :
    ∃ notes, popBlocks count s = { s with memory := s.memory.run (.replicate count .endScope), notes } := by
  induction count generalizing s with
  | zero => exact ⟨s.notes, rfl⟩
  | succ count ih =>
    unfold popBlocks
    split
    · rename_i popped did
      obtain ⟨_, notes, rfl⟩ := popBlock_eq_some did
      obtain ⟨notes, same⟩ := ih { s with memory := (s.memory.perform .endScope).2, notes }
      exact ⟨notes, by rw [same, List.replicate_succ, Memory.run_cons]⟩
    · rename_i stays
      exact ⟨s.notes, by rw [Memory.run_endScope_of_unwound (popBlock_eq_none stays)]⟩

/-- Popping as often as there are stack blocks leaves none. -/
theorem popBlocks_unwound {count : Nat} (enough : s.memory.stackBlocks.length ≤ count) :
    (popBlocks count s).memory.endScope? = none := by
  induction count generalizing s with
  | zero =>
    have empty : s.memory.stackBlocks = [] := List.eq_nil_of_length_eq_zero (Nat.le_zero.mp enough)
    rw [popBlocks, Memory.endScope?, empty]
    rfl
  | succ count ih =>
    unfold popBlocks
    split
    · rename_i next popped
      obtain ⟨⟨exit, left⟩, notes, rfl⟩ := popBlock_eq_some popped
      have fewer := Memory.stackBlocks_endScope_lt left
      rw [← Memory.perform_endScope left] at fewer
      exact ih (Nat.le_of_lt_succ (Nat.lt_of_lt_of_le fewer enough))
    · rename_i stays
      exact popBlock_eq_none stays

/-- The steps of a run that nobody stops. -/
def steps : List CodeLine → Session → List Step
  | [], _ => []
  | line :: rest, s =>
    { line, memory := s.memory } ::
      match Action.executeCodeLine line s with
      | .ok _ next => steps rest next
      | .error _ _ => []

theorem forM_cons_eq {α : Type} (f : α → Action PUnit) (x : α) (rest : List α) (s : Session) :
    (x :: rest).forM f s =
      match f x s with
      | .ok _ next => rest.forM f next
      | .error e next => .error e next := by
  change (f x >>= fun _ => rest.forM f) s = _
  simp only [bind, EStateM.bind]
  cases f x s <;> rfl

/-- A run of lines may be taken in two parts. -/
theorem forM_append_eq {α : Type} (f : α → Action PUnit) (first second : List α) (s : Session) :
    (first ++ second).forM f s =
      match first.forM f s with
      | .ok _ next => second.forM f next
      | .error e next => .error e next := by
  induction first generalizing s with
  | nil => rfl
  | cons x rest ih =>
    rw [List.cons_append, forM_cons_eq, forM_cons_eq]
    cases f x s with
    | ok _ next => exact ih next
    | error e next => rfl

/-- A step is shown before its line if all lines before that ran. -/
theorem getElem?_steps {lines : List CodeLine} {i : Nat} {step : Step} :
    (steps lines s)[i]? = some step ↔ lines[i]? = some step.line ∧
      ∃ t, (lines.take i).forM Action.executeCodeLine s = .ok () t ∧ step.memory = t.memory := by
  induction lines generalizing s i with
  | nil => simp [steps]
  | cons line rest ih =>
    unfold steps
    cases i with
    | zero =>
      rw [List.getElem?_cons_zero, List.getElem?_cons_zero, List.take_zero, Option.some.injEq, Option.some.injEq]
      constructor
      · rintro rfl
        exact ⟨rfl, s, rfl, rfl⟩
      · obtain ⟨shown, memory⟩ := step
        rintro ⟨rfl, _, ⟨⟩, rfl⟩
        rfl
    | succ i =>
      rw [List.getElem?_cons_succ, List.getElem?_cons_succ, List.take_succ_cons, forM_cons_eq]
      cases Action.executeCodeLine line s with
      | ok _ next => exact ih
      | error e next => simp

section Run

variable {α : Type} {observe : Step → α → ForInStep α} {seen : α}

theorem runSteps_seen (lines : List CodeLine) (seen : α) (s : Session) :
    (runSteps observe lines seen s).seen = (watch observe (steps lines s) seen).value := by
  induction lines generalizing s seen with
  | nil => rfl
  | cons line rest ih =>
    unfold runSteps steps watch
    cases observe { line, memory := s.memory } seen with
    | done last => rfl
    | yield next =>
      dsimp only
      cases Action.executeCodeLine line s with
      | ok _ t => exact ih next t
      | error e t => rfl

/-- An observer who sees all steps stops nothing. -/
theorem runSteps_watched {lines : List CodeLine} {last : α}
    (watched : watch observe (steps lines s) seen = .yield last) :
    runSteps observe lines seen s =
      match lines.forM Action.executeCodeLine s with
      | .ok _ t => { seen := last, result := .ok (), session := t.popAll.finish }
      | .error e t => { seen := last, result := .error e, session := t } := by
  induction lines generalizing s seen with
  | nil =>
    obtain rfl := ForInStep.yield.inj watched
    rfl
  | cons line rest ih =>
    unfold steps watch at watched
    rw [runSteps, forM_cons_eq]
    cases sees : observe { line, memory := s.memory } seen with
    | done other =>
      rw [sees] at watched
      contradiction
    | yield next =>
      rw [sees] at watched
      dsimp only at watched ⊢
      cases ran : Action.executeCodeLine line s with
      | ok _ t =>
        rw [ran] at watched
        exact ih watched
      | error e t =>
        rw [ran] at watched
        obtain rfl := ForInStep.yield.inj watched
        rfl

/-- An observer who is done at a step stops the run before its line. -/
theorem runSteps_stopped {lines : List CodeLine} {k : Nat} {step : Step} {mid last : α}
    (watched : watch observe ((steps lines s).take k) seen = .yield mid) (there : (steps lines s)[k]? = some step)
    (done : observe step mid = .done last) :
    ∃ t, (lines.take k).forM Action.executeCodeLine s = .ok () t ∧
      runSteps observe lines seen s = { seen := last, result := .ok (), session := t } := by
  induction lines generalizing s seen k with
  | nil => simp [steps] at there
  | cons line rest ih =>
    unfold steps at watched there
    rw [runSteps]
    cases k with
    | zero =>
      obtain rfl := ForInStep.yield.inj watched
      obtain rfl := Option.some.inj there
      exact ⟨s, rfl, by rw [done]⟩
    | succ k =>
      rw [List.take_succ_cons, watch] at watched
      rw [List.getElem?_cons_succ] at there
      rw [List.take_succ_cons, forM_cons_eq]
      cases sees : observe { line, memory := s.memory } seen with
      | done other =>
        rw [sees] at watched
        contradiction
      | yield next =>
        rw [sees] at watched
        dsimp only at watched ⊢
        cases ran : Action.executeCodeLine line s with
        | ok _ t =>
          rw [ran] at watched there
          exact ih watched there
        | error e t =>
          rw [ran] at there
          contradiction

end Run

end Session

/-- A batch run runs its lines and finishes. -/
theorem Action.execute_eq (script : Text) (s : Session) :
    Action.execute script s =
      match (codeLines script).forM executeCodeLine s with
      | .ok _ t => .ok () t.finish
      | .error e t => .error e t := by
  simp only [execute, bind, EStateM.bind]
  cases (codeLines script).forM executeCodeLine s <;> rfl

/-- Whichever way a batch run unwinds its stack in the end, a stepwise run has come to the same, but for the log
and the notes. -/
theorem Session.popAll_finish (t : Session) {n : Nat}
    (unwound : (t.finish.memory.run (.replicate n .endScope)).endScope? = none) :
    ∃ log notes, t.popAll.finish =
      { t.finish with memory := { t.finish.memory.run (.replicate n .endScope) with events := log }, notes } := by
  have reported : t.memory.Alike t.finish.memory := .reportLeaks t.memory
  have ends : t.popAll.memory.endScope? = none := popBlocks_unwound (Nat.le_refl _)
  obtain ⟨notes, popped⟩ := popBlocks_eq t.memory.stackBlocks.length t
  rw [popAll, popped] at ends
  have same := Memory.unwound_unique ends ((reported.unwind n).endScope?_eq_none.mpr unwound)
  obtain ⟨log, drained⟩ : (t.finish.memory.run (.replicate n .endScope)).Alike t.popAll.finish.memory := by
    have unwinds := (reported.unwind n).symm
    rw [← same] at unwinds
    rw [popAll, popped]
    exact unwinds.trans (.reportLeaks _)
  have kept : t.popAll.finish =
      { t.finish with memory := t.popAll.finish.memory, notes := t.popAll.finish.notes } := by
    rw [popAll, popped]
    rfl
  exact ⟨log, _, kept.trans (by rw [drained])⟩

/-- A stepwise run does what a batch run does. Its observer sees every line in its turn, up to the first that fails,
with the memory as it is then. If it is done at one of them, the run stops before that line, and that is all. If it
sees all, both runs fail alike, or both get through. Then the stepwise run has released the stack as well. -/
theorem stepwise_refines_batch (s : Session) (script : Text) :
    ∃ steps : List Step,
      (∀ i step, steps[i]? = some step ↔ (codeLines script)[i]? = some step.line ∧
        ∃ t, ((codeLines script).take i).forM Action.executeCodeLine s = .ok () t ∧ step.memory = t.memory) ∧
      ∀ (α : Type) (observe : Step → α → ForInStep α) (start : α),
        (s.executeStepwise script observe start).seen = (watch observe steps start).value ∧
        (∀ k step seen last, watch observe (steps.take k) start = .yield seen → steps[k]? = some step →
          observe step seen = .done last →
          ∃ t, ((codeLines script).take k).forM Action.executeCodeLine s = .ok () t ∧
            s.executeStepwise script observe start = { seen := last, result := .ok (), session := t }) ∧
        (∀ seen, watch observe steps start = .yield seen →
          match Action.execute script s with
          | .error e t => s.executeStepwise script observe start = { seen, result := .error e, session := t }
          | .ok _ t =>
            (∃ n, (t.memory.run (.replicate n .endScope)).endScope? = none) ∧
            ∀ n, (t.memory.run (.replicate n .endScope)).endScope? = none →
              ∃ log notes, s.executeStepwise script observe start =
                { seen, result := .ok ()
                  session :=
                    { t with memory := { t.memory.run (.replicate n .endScope) with events := log }, notes } }) := by
  refine ⟨Session.steps (codeLines script) s, fun i step => Session.getElem?_steps, fun α observe start =>
    ⟨Session.runSteps_seen .., fun k step seen last => Session.runSteps_stopped, fun seen watched => ?_⟩⟩
  have ran := Session.runSteps_watched watched
  rw [Action.execute_eq]
  unfold Session.executeStepwise
  rw [ran]
  cases (codeLines script).forM Action.executeCodeLine s with
  | error e t => rfl
  | ok _ t =>
    refine ⟨Memory.exists_unwound _, fun n unwound => ?_⟩
    obtain ⟨log, notes, same⟩ := t.popAll_finish unwound
    exact ⟨log, notes, congrArg (Stepped.mk seen (.ok ())) same⟩

/-- Three lines, with an observer that is done at the second and one that sees them all. -/
theorem stepwise_refines_batch_of_main :
    ∃ script : Text, ∃ t u : Session,
      ((codeLines script).take 1).forM Action.executeCodeLine {} = .ok () t ∧
      ({} : Session).executeStepwise script (fun _ lines => if lines = 1 then .done 1 else .yield (lines + 1)) 0 =
        { seen := 1, result := .ok (), session := t } ∧
      Action.execute script {} = .ok () u ∧ u.memory.stackBlocks.length = 2 ∧
      ∃ n log notes, ({} : Session).executeStepwise script (fun _ lines => .yield (lines + 1)) 0 =
        { seen := 3, result := .ok ()
          session := { u with memory := { u.memory.run (.replicate n .endScope) with events := log }, notes } } := by
  obtain ⟨script, three, entered, begun, ran, left, count⟩ : ∃ script : Text, (codeLines script).length = 3 ∧
      (((codeLines script).take 0).forM Action.executeCodeLine).run' {} = some () ∧
      (((codeLines script).take 1).forM Action.executeCodeLine).run' {} = some () ∧
      (Action.execute script).run' {} = some () ∧
      ((Action.execute script).after {}).memory.stackBlocks.length = 2 ∧
      (({} : Session).executeStepwise script (fun _ lines => .yield (lines + 1)) 0).seen = 3 :=
    ⟨"int main() \x7b\n  int x;\n  int* p = &x;".toList, by decide +kernel⟩
  obtain ⟨steps, shown, runs⟩ := stepwise_refines_batch {} script
  have there (i : Nat) (small : i < 3)
      (ran : (((codeLines script).take i).forM Action.executeCodeLine).run' {} = some ()) :
      ∃ step, steps[i]? = some step := by
    have line := List.getElem?_eq_getElem (three ▸ small)
    exact ⟨⟨_, _⟩, (shown i ⟨_, _⟩).mpr ⟨line, _, Action.eq_ok_of_run' ran, rfl⟩⟩
  obtain ⟨first, head⟩ := there 0 (by decide) entered
  obtain ⟨second, next⟩ := there 1 (by decide) begun
  have once : steps.take 1 = [first] := by rw [List.take_add_one, head]; rfl
  obtain ⟨_, stops, _⟩ := runs Nat (fun _ lines => if lines = 1 then .done 1 else .yield (lines + 1)) 0
  obtain ⟨t, before, stopped⟩ := stops 1 second 1 1 (by rw [once]; rfl) next rfl
  obtain ⟨seen_eq, _, ends⟩ := runs Nat (fun _ lines => .yield (lines + 1)) 0
  obtain ⟨seen, watched⟩ := @watch_of_continues Nat (fun _ lines => .yield (lines + 1))
    (fun _ lines => ⟨lines + 1, rfl⟩) steps 0
  have batch := ends seen watched
  rw [watched, count] at seen_eq
  obtain rfl : seen = 3 := seen_eq.symm
  have done := Action.eq_ok_of_run' ran
  rw [done] at batch
  obtain ⟨⟨n, unwound⟩, drained⟩ := batch
  exact ⟨script, t, _, before, stopped, done, left, n, drained n unwound⟩

end MemoryTrace
