import MemoryTrace.Memory.Leak
import MemoryTrace.Session.Note
import MemoryTrace.Table

namespace MemoryTrace

/-- A class whose definition is still open. `methodDepth` counts the braces open inside one of its
functions. `awaitingBody` means that a function header was seen whose brace may start the next line. -/
structure OpenClass where
  name : String
  methodDepth : Nat := 0
  awaitingBody : Bool := false
  deriving DecidableEq, Repr

/-- The state between two lines of a script. `scopeDepth` counts the braces open in and outside `main`,
and `line` is the number of the line that runs, for its errors. -/
structure Session where
  memory : Memory := {}
  bindings : Table BlockId := []
  classes : Table ClassLayout := []
  openClass : Option OpenClass := none
  scopeDepth : Nat := 0
  inMain : Bool := false
  line : Nat := 0
  lastError : Option ScriptError := none
  notes : List Note := []
  deriving DecidableEq, Repr

/-- A statement changes the session, and may stop halfway: what it did before that stays done. -/
abbrev Action := EStateM Failure Session

namespace Session

/-- Starts over. Classes are forgotten too. -/
def reset (_ : Session) : Session := {}

/-- A remark on the state as it is. -/
def noteOf (s : Session) (remark : Remark) : Note :=
  { remark, line := s.line, eventCount := s.memory.events.entries.length }

/-- Notes a remark on the state as it is. -/
def note (s : Session) (remark : Remark) : Session := { s with notes := s.notes ++ [s.noteOf remark] }

/-- The pointer that a live or dead block holds. -/
def pointer? (s : Session) (id : BlockId) : Option Pointer := (s.memory.block? id).bind (·.pointer?)

/-- The discipline of the pointer that a block holds. -/
def discipline? (s : Session) (id : BlockId) : Option Discipline := (s.pointer? id).map (·.discipline)

/-- What the pointer that a block holds points to. -/
def target? (s : Session) (id : BlockId) : Option BlockId := (s.pointer? id).bind (·.target)

/-- The class of that name. -/
def class? (s : Session) (name : Text) : Option ClassLayout := s.classes.get? name.toName

/-- The block that a name denotes, live or not. -/
def named? (s : Session) (name : Text) : Option BlockId := s.bindings.get? name.toName

end Session

namespace Action

/-- Notes a remark on the present line. -/
def note (remark : Remark) : Action Unit := modify (·.note remark)

/-- Gives up the present line. -/
def fail {α : Type} (cause : Cause) : Action α := do throw (.script { line := (← get).line, cause })

/-- Runs a memory operation. Its refusal is an error of the line. -/
def attempt (operation : Memory → Except MemoryError Memory) : Action Unit := do
  match operation (← get).memory with
  | .ok memory => modify fun s => { s with memory }
  | .error e => fail (.rejected e)

/-- Creates a block. -/
def create (operation : Memory → BlockId × Memory) : Action BlockId := do
  let made := operation (← get).memory
  modify fun s => { s with memory := made.2 }
  return made.1

/-- Lets a name denote a block from now on. -/
def bindName (name : Text) (id : BlockId) : Action Unit :=
  modify fun s => { s with bindings := s.bindings.set name.toName id }

/-- The block a name denotes, which must still be live. -/
def lookup (name : Text) : Action BlockId := do
  let s ← get
  match s.named? name with
  | none => fail (.undefinedVariable name.toName)
  | some id => if (s.memory.block? id).any (·.live) then return id else fail (.outOfScope name.toName)

/-- The size of an array, which a word must hold. -/
def arraySize (name : String) (unit count : Nat) : Action Nat :=
  if unit * count ≤ largestWord then return unit * count else fail (.sizeOverflow name)

/-- Reads a declaration. A text that is none is no error, but a crash goes through. -/
def declaration? (text : Text) : Action (Option (List Script.Declarator)) :=
  match Script.readDeclaration text with
  | .ok declarators => return some declarators
  | .error .unreadable => return none
  | .error (.crash c) => throw (.crash c)

end Action

end MemoryTrace
