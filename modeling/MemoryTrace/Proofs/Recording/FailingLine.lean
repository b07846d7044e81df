import MemoryTrace.Proofs.Recording.Limit
import MemoryTrace.Proofs.Session.FailingLine

namespace MemoryTrace

open Script

/-- An error names a line that is not blank without its comments. The script that is cut before this line gets through,
the lines below it make no difference, and the session remembers the error. That is so for stepwise runs as well, if
their observer always goes on. A recording goes on as long as there is room for the snapshots before all lines. Then its
last snapshot tells the error, if there is room for that too. -/
theorem errors_name_failing_line (s : Session) (script : Text) :
    (∀ e t, Action.execute script s = .error (.script e) t →
      NamesFailingLine (fun script => Action.execute script s) script e t) ∧
    (∀ (α : Type) (observe : Step → α → ForInStep α) (start : α),
      (∀ step seen, ∃ more, observe step seen = .yield more) →
      ∀ e t, (s.executeStepwise script observe start).outcome = .error (.script e) t →
        NamesFailingLine (fun script => (s.executeStepwise script observe start).outcome) script e t) ∧
    (∀ e t, Action.execute script s = .error (.script e) t → ∀ limit, ∃ recording,
      s.record script limit = .ok recording ∧
      if room (s.shots script) ≤ limit then
        recording.error = some e ∧ recording.session = t ∧
          let last : Snapshot := { memory := t.memory, line := some e.line, text := e.message }
          room (s.shots script) + last.estimatedSize ≤ limit → recording.history.snapshots.getLast? = some last
      else recording.error = none ∧ recording.truncated) := by
  refine ⟨fun e t failed => ?_, fun α observe start continues e t failed => ?_, fun e t failed limit => ?_⟩
  · exact namesFailingLine_of_runs (fun script => Action.execute_eq script s) failed
  · exact namesFailingLine_of_runs (Session.outcome_of_continues continues s start) failed
  · have failed := failed_of_runs (fun script => Action.execute_eq script s) failed
    split
    · rename_i fits
      have ended := History.close_ended fits (some e) false t
      refine ⟨_, by rw [Session.record_of_fits fits, failed], ended.error, ended.session, fun last_fits => ?_⟩
      rw [ended.snapshots, lastSnapshot, if_pos last_fits, List.getLast?_concat]
    · rename_i full
      obtain ⟨_, _, recording, recorded, ended⟩ := Session.record_of_no_room (Nat.not_le.mp full)
      exact ⟨recording, recorded, ended.error, ended.truncated.mpr (.inl rfl)⟩

/-- The second of three lines deletes what there is not. -/
theorem errors_name_failing_line_of_delete :
    ∃ (script : Text) (e : ScriptError) (t : Session), e.line = 2 ∧
      Action.execute script {} = .error (.script e) t ∧
      NamesFailingLine (fun script => Action.execute script {}) script e t ∧
      NamesFailingLine
        (fun script => (({} : Session).executeStepwise script (fun _ seen => .yield (seen + 1)) 0).outcome) script e t ∧
      ∃ recording, ({} : Session).record script 10000 = .ok recording ∧ recording.error = some e ∧
        recording.history.snapshots.getLast? = some { memory := t.memory, line := some 2, text := e.message } := by
  let e : ScriptError := { line := 2, cause := .undefinedVariable "p" }
  obtain ⟨script, fails, fits⟩ : ∃ script, (Action.execute script).failure? {} = some (.script e) ∧
      room (({} : Session).shots script) + Snapshot.estimatedSize
        { memory := ((Action.execute script).after {}).memory, line := some e.line, text := e.message } ≤ 10000 :=
    ⟨"int main() \x7b\n  delete p;\n\x7d".toList, by decide +kernel⟩
  have failed := Action.eq_error_of_failure? fails
  obtain ⟨batch, stepwise, recorded⟩ := errors_name_failing_line {} script
  have continues (step : Step) (seen : Nat) : ∃ more, ForInStep.yield (seen + 1) = .yield more := ⟨seen + 1, rfl⟩
  have stepped := Session.outcome_of_continues continues {} 0 script
  rw [failed_of_runs (fun script => Action.execute_eq script {}) failed] at stepped
  obtain ⟨recording, recorded, ended⟩ := recorded e _ failed 10000
  rw [if_pos (Nat.le_trans (Nat.le_add_right ..) fits)] at ended
  exact ⟨script, e, _, rfl, failed, batch e _ failed, stepwise Nat _ 0 continues e _ stepped, recording, recorded,
    ended.1, ended.2.2 fits⟩

end MemoryTrace
