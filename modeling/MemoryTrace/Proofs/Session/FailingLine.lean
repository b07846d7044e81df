import MemoryTrace.Proofs.Script.FirstLines
import MemoryTrace.Proofs.Session.Blind

namespace MemoryTrace

open Script Text

namespace Action

variable {s t : Session} {e : Failure}

/-- A run that fails does so in one of its lines, and those above it got through. -/
theorem forM_eq_error {α : Type} {f : α → Action PUnit} {lines : List α} (failed : lines.forM f s = .error e t) :
    ∃ before line after u, lines = before ++ line :: after ∧ before.forM f s = .ok () u ∧ f line u = .error e t := by
  induction lines generalizing s with
  | nil => contradiction
  | cons line rest ih =>
    rw [Session.forM_cons_eq] at failed
    cases ran : f line s with
    | ok _ next =>
      rw [ran] at failed
      obtain ⟨before, other, after, u, rfl, through, fails⟩ := ih failed
      refine ⟨line :: before, other, after, u, rfl, ?_, fails⟩
      rw [Session.forM_cons_eq, ran]
      exact through
    | error cause next =>
      rw [ran] at failed
      exact ⟨[], line, rest, s, rfl, rfl, ran.trans failed⟩

theorem executeLine_remembers {line : Text} {e : ScriptError} (failed : executeLine line s = .error (.script e) t) :
    t.lastError = some e := by
  unfold executeLine at failed
  split at failed
  · obtain ⟨same, rfl⟩ := EStateM.Result.error.inj failed
    exact congrArg some (Failure.script.inj same)
  · rename_i other
    exact absurd failed (other e t)

/-- A line fails under its own number, whichever part of it fails, and the session remembers the error. -/
theorem executeCodeLine_eq_error {line : CodeLine} {e : ScriptError}
    (failed : executeCodeLine line s = .error (.script e) t) : e.line = line.number ∧ t.lastError = some e := by
  have agreed : Agree True line.number line.number (executeCodeLine line s) (executeCodeLine line s) :=
    agree_executeCodeLine line line rfl (.refl s)
  have remembered : t.lastError = some e := executeLine_remembers failed
  rw [failed] at agreed
  cases agreed with
  | script cause _ => exact ⟨rfl, remembered⟩

end Action

/-- The run of a script ends with this error, and this is what that says about the script. The line that the error names
is not blank without its comments. Cut before that line the script gets through, and cut behind it it comes to the same
end. -/
structure NamesFailingLine (run : Text → EStateM.Result Failure Session Unit) (script : Text) (e : ScriptError)
    (t : Session) : Prop where
  positive : 1 ≤ e.line
  code : ∃ text, script.lines[e.line - 1]? = some text ∧ codeOf text ≠ []
  before : ∃ u, run (firstLines (e.line - 1) script) = .ok () u
  upTo : run (firstLines e.line script) = .error (.script e) t
  remembered : t.lastError = some e

section Runs

variable {run : Text → EStateM.Result Failure Session Unit} {s t : Session} {finish : Session → Session}
  (runs : ∀ script, run script =
    match (codeLines script).forM Action.executeCodeLine s with
    | .ok _ u => .ok () (finish u)
    | .error e u => .error e u)

include runs

/-- What ends the run of a script once its lines got through does not fail. -/
theorem failed_of_runs {script : Text} {e : Failure} (failed : run script = .error e t) :
    (codeLines script).forM Action.executeCodeLine s = .error e t := by
  rw [runs] at failed
  cases ran : (codeLines script).forM Action.executeCodeLine s with
  | ok _ u =>
    rw [ran] at failed
    contradiction
  | error cause u =>
    rw [ran] at failed
    exact failed

/-- An error of a script is that of the line that was running. The lines above it got through, and the lines below it
have no part in it. -/
theorem namesFailingLine_of_runs {script : Text} {e : ScriptError} (failed : run script = .error (.script e) t) :
    NamesFailingLine run script e t := by
  obtain ⟨before, line, after, u, split, through, fails⟩ := Action.forM_eq_error (failed_of_runs runs failed)
  obtain ⟨number, remembered⟩ := Action.executeCodeLine_eq_error fails
  obtain ⟨positive, code, above, upTo⟩ := codeLines_cut split
  rw [← number] at positive code above upTo
  have stops : (before ++ [line]).forM Action.executeCodeLine s = .error (.script e) t := by
    rw [Session.forM_append_eq, through]
    dsimp only
    rw [Session.forM_cons_eq, fails]
  refine ⟨positive, code, ⟨finish u, ?_⟩, ?_, remembered⟩
  · rw [runs, above, through]
  · rw [runs, upTo, stops]

end Runs

/-- How a stepwise run ended, told in the way of a batch run. -/
def Stepped.outcome {α : Type} (run : Stepped α) : EStateM.Result Failure Session Unit :=
  match run.result with
  | .ok () => .ok () run.session
  | .error e => .error e run.session

/-- An observer that always goes on does not show in how a stepwise run ends. -/
theorem Session.outcome_of_continues {α : Type} {observe : Step → α → ForInStep α}
    (continues : ∀ step seen, ∃ more, observe step seen = .yield more) (s : Session) (start : α) (script : Text) :
    (s.executeStepwise script observe start).outcome =
      match (codeLines script).forM Action.executeCodeLine s with
      | .ok _ t => .ok () t.popAll.finish
      | .error e t => .error e t := by
  obtain ⟨last, watched⟩ := watch_of_continues continues (Session.steps (codeLines script) s) start
  rw [executeStepwise, runSteps_watched watched]
  cases (codeLines script).forM Action.executeCodeLine s <;> rfl

end MemoryTrace
