import MemoryTrace.Recording.History

namespace MemoryTrace

/-- A recorded run. `truncated` means that some snapshot did not fit. -/
structure Recording where
  history : History
  error : Option ScriptError
  truncated : Bool
  session : Session

/-- Keeps a snapshot of the memory before a line. The first that does not fit stops the run. -/
def observeStep (step : Step) (seen : History × Bool) : ForInStep (History × Bool) :=
  match seen.1.push { memory := step.memory, line := some step.line.number, text := step.line.text.toName } with
  | .ok history => .yield (history, seen.2)
  | .error _ => .done (seen.1, true)

/-- The snapshot that ends a recording: the error, the limit or the end of the program. -/
def lastSnapshot (memory : Memory) (error : Option ScriptError) (truncated : Bool) : Snapshot :=
  match error with
  | some e => { memory, line := some e.line, text := e.message }
  | none =>
    { memory, line := none
      text := if truncated then "recording stopped: snapshot limit reached" else "end of program" }

/-- Runs a script stepwise with a snapshot before every line and one of the state it ends in. -/
def Session.record (s : Session) (script : Text) (limit : Nat) : Except Script.Crash Recording :=
  let run := s.executeStepwise script observeStep ({ limit }, false)
  let (history, truncated) := run.seen
  let ended (error : Option ScriptError) : Recording :=
    match history.push (lastSnapshot run.session.memory error truncated) with
    | .ok history => { history, error, truncated, session := run.session }
    | .error _ => { history, error, truncated := true, session := run.session }
  match run.result with
  | .ok () => .ok (ended none)
  | .error (.script e) => .ok (ended (some e))
  | .error (.crash c) => .error c

end MemoryTrace
