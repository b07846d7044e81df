import MemoryTrace.Session.Execution
import MemoryTrace.Text.Control

namespace MemoryTrace.CommandLine

/-- How much a record matters. -/
inductive Level
  | debug
  | info
  | warn
  deriving DecidableEq, Repr

/-- Labels are of one width. -/
def Level.label : Level → String
  | debug => "DEBUG"
  | info => "INFO "
  | warn => "WARN "

/-- Warnings are what the script is at fault for. Entering and leaving `main` is told on the next level. -/
def Level.ofRemark (remark : Remark) : Level :=
  if remark.isWarning then .warn
  else
    match remark with
    | .mainEntered | .mainLeft => .info
    | _ => .debug

/-- One line of the log. -/
structure LogRecord where
  level : Level
  message : String
  deriving DecidableEq, Repr

/-- A record as it is printed. Controls in a script do not get through to the terminal, but a control string
that is left open takes the line end of the record with it. -/
def LogRecord.text (r : LogRecord) : String :=
  (Text.withoutControls s!"[{r.level.label}] {r.message}\n".toList).toName

namespace LogRecord

/-- The record of an event of memory. -/
def ofEvent (e : Event) : LogRecord :=
  { level := .debug, message := s!"[{e.kind.label}] #{e.block} {e.description}" }

/-- The record of a note. -/
def ofNote (note : Note) : LogRecord := { level := .ofRemark note.remark, message := note.message }

/-- Puts every note behind the events that were there before it. `seen` events are told already. -/
def interleave (seen : Nat) (events : List Event) : List Note → List LogRecord
  | [] => events.map ofEvent
  | note :: rest =>
    let due := note.eventCount - seen
    (events.take due).map ofEvent ++ ofNote note :: interleave (seen + due) (events.drop due) rest

/-- The notes of a session and the events of its memory, in the order in which they were made. -/
def ofSession (s : Session) : List LogRecord := interleave 0 s.memory.events.entries s.notes

/-- The last record of a run that gets to its end. -/
def finished (m : Memory) : LogRecord :=
  { level := .info, message := s!"script finished: {m.liveBlocks.length} live blocks, {m.leaks.length} leaked" }

/-- The log of a run. Its memory forgets no event. -/
def ofScript (source : Text) : List LogRecord :=
  let start : Session := { memory := .withCapacity EventLog.largestCapacity }
  { level := .info, message := s!"executing script ({source.lines.length} lines)" } ::
    match Action.execute source start with
    | .ok _ s => ofSession s ++ [finished s.memory]
    | .error _ s => ofSession s

/-- Whether the record is printed without `--verbose`. -/
def isWarning (r : LogRecord) : Bool := r.level = .warn

end LogRecord

end MemoryTrace.CommandLine
