import MemoryTrace.Session.Statement

namespace MemoryTrace

open Script

namespace Session

/-- The session after a block was popped. A pointee that its owner could not free is only noted. -/
def afterExit (s : Session) (exit : Memory.ScopeExit) : Session :=
  let popped := { s with memory := exit.memory }
  match exit.refused with
  | some (target, error) => popped.note (.notFreed exit.popped target error)
  | none => popped

/-- Only memory and the notes tell that a block was popped. -/
theorem afterExit_eq (s : Session) (exit : Memory.ScopeExit) :
    ∃ notes, s.afterExit exit = { s with memory := exit.memory, notes } := by
  unfold afterExit
  dsimp only
  split <;> exact ⟨_, rfl⟩

/-- Pops the newest live stack block. -/
def popBlock (s : Session) : Option Session := s.memory.endScope?.map s.afterExit

/-- Leaves a scope of `main`. The block that goes with it is noted, if there is one left. -/
def leaveScope (s : Session) : Session :=
  match s.memory.endScope? with
  | some exit => (s.afterExit exit).note (.leftScope exit.popped)
  | none => s

end Session

namespace Action

/-- Enters `main`, whose header counts the braces it opens. One that closes what it opens has an empty body. -/
def enterMain (line : Text) : Action Unit :=
  if line.contains '{' ∧ braceBalance line ≤ 0 then note .emptyMain
  else do
    modify fun s => { s with inMain := true, scopeDepth := (braceBalance line).toNat }
    note .mainEntered

/-- Braces are counted inside `main` and outside. -/
def openScope : Action Unit := modify fun s => { s with scopeDepth := s.scopeDepth + 1 }

/-- Inside `main` a scope takes one stack block with it, and the last scope ends `main`. -/
def closeScope : Action Unit := do
  let s ← get
  if s.scopeDepth = 0 then
    fail .unexpectedScopeEnd
  else if s.inMain then
    let left := s.leaveScope
    let next := { left with scopeDepth := s.scopeDepth - 1, inMain := s.scopeDepth ≠ 1 }
    set (if s.scopeDepth = 1 then next.note .mainLeft else next)
  else
    set { s with scopeDepth := s.scopeDepth - 1 }

/-- What `delete` or `delete[]` is applied to. -/
def deletedName (line : Text) : Text :=
  let rest := Text.trimStart ((line.trimStart.afterStart? "delete").getD line.trimStart)
  trimStatement ((rest.afterStart? "[]").getD rest)

/-- Frees what a pointer points to and makes the pointer null. A shared pointer only stops owning it. -/
def delete (line : Text) : Action Unit := do
  let name := deletedName line
  if !isName name then
    fail .invalidDelete
  else
    let id ← lookup name
    match (← get).pointer? id with
    | none => fail (.notAPointer name.toName)
    | some p =>
      match p.target with
      | none => fail (.nullDelete name.toName)
      | some target =>
        attempt (·.deallocateIfAny (if p.discipline = .shared then none else some target))
        attempt (·.assignPointer id none)

end Action

end MemoryTrace
