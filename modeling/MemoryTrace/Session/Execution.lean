import MemoryTrace.Session.ClassDefinition
import MemoryTrace.Session.Declaration
import MemoryTrace.Session.Scope

namespace MemoryTrace

open Script

/-- A run that gets to its end clears the last error and reports what it leaked. -/
def Session.finish (s : Session) : Session :=
  { s with
    lastError := none
    notes := s.notes ++ s.memory.leakedBlocks.map fun b => s.noteOf (.leaked b.name b.size)
    memory := s.memory.reportLeaks }

namespace Action

/-- What a line does once its kind is known. A return has no effect of its own, and what means nothing is skipped. -/
def perform (line : Text) : StatementKind → Action Unit
  | .classHeader => beginClass line
  | .classBody => classBody line
  | .entryFunction => enterMain line
  | .scopeReenter => do closeScope; openScope
  | .scopeClose => closeScope
  | .scopeOpen => openScope
  | .delete => delete line
  | .declareWithNew => assignment line
  | .smartPointer => smartPointer line
  | .assignment => assignment line
  | .declaration => declaration line
  | .returning | .outsideFunction | .unrecognized => return

/-- Takes a line for what it is and does that. -/
def statement (line : Text) : Action Unit := do
  match (← get).classify line with
  | .ok kind => do
    note (.running kind line.toName)
    perform line kind
  | .error c => throw (.crash c)

/-- Runs one line that has no comments. The session remembers the error of the last line that failed. -/
def executeLine (line : Text) : Action Unit := fun s =>
  match statement line s with
  | .error (.script e) s => .error (.script e) ({ s with lastError := some e }.note (.failed e))
  | outcome => outcome

/-- Runs one line of a script: time goes on first. -/
def executeCodeLine (line : CodeLine) : Action Unit := do
  modify fun s => { s with line := line.number, memory := s.memory.tick }
  executeLine line.code

/-- Runs a script up to its first error. What earlier scripts left is still there. -/
def execute (script : Text) : Action Unit := do
  (codeLines script).forM executeCodeLine
  modify Session.finish

end Action

namespace Session

/-- Pops at most so many stack blocks. -/
def popBlocks : Nat → Session → Session
  | 0, s => s
  | count + 1, s =>
    match s.popBlock with
    | some popped => popBlocks count popped
    | none => s

/-- The program's own last scope: every stack block goes, newest first. -/
def popAll (s : Session) : Session := popBlocks s.memory.stackBlocks.length s

end Session

/-- A line about to run, and the memory it will run on. -/
structure Step where
  line : CodeLine
  memory : Memory

/-- A stepwise run. `seen` is what its observer made of the steps. -/
structure Stepped (α : Type) where
  seen : α
  result : Except Failure Unit
  session : Session

namespace Session

/-- Shows `observe` every line before it runs. An observer that is done stops the run there, and that is no
error. A run that gets through releases the stack before it finishes. -/
def runSteps {α : Type} (observe : Step → α → ForInStep α) : List CodeLine → α → Session → Stepped α
  | [], seen, s => { seen, result := .ok (), session := s.popAll.finish }
  | line :: rest, seen, s =>
    match observe { line, memory := s.memory } seen with
    | .done seen => { seen, result := .ok (), session := s }
    | .yield seen =>
      match Action.executeCodeLine line s with
      | .ok _ s => runSteps observe rest seen s
      | .error e s => { seen, result := .error e, session := s }

/-- Runs a script line by line for an observer that starts with `start`. -/
def executeStepwise {α : Type} (s : Session) (script : Text) (observe : Step → α → ForInStep α) (start : α) :
    Stepped α :=
  runSteps observe (codeLines script) start s

end Session

end MemoryTrace
