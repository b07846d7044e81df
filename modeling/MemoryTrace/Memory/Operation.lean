import MemoryTrace.Memory.Leak

namespace MemoryTrace

/-- Everything that changes a memory. -/
inductive Operation
  | createVariable (name : String) (size : Nat)
  | createPointer (name : String) (discipline : Discipline) (pointee : Option ClassLayout)
  | createObject (name : String) (layout : ClassLayout)
  | allocate (name : String) (size : Nat) (discipline : Discipline)
  | allocateObject (name : String) (layout : ClassLayout) (discipline : Discipline)
  | deallocate (id : BlockId)
  | assignPointer (pointer : BlockId) (target : Option BlockId)
  | copyShared (source : BlockId) (name : String)
  | moveUnique (source dest : BlockId)
  | endScope
  | reportLeaks
  | tick
  | reset
  deriving DecidableEq, Repr

/-- What an operation answers. `popped` is empty when there was no scope to leave. -/
inductive Reply
  | done
  | created (id : BlockId)
  | popped (id : Option BlockId)
  | leaked (ids : List BlockId)
  | refused (error : MemoryError)
  deriving DecidableEq, Repr

namespace Memory

/-- A refused operation leaves the memory as it was. -/
def settle (m : Memory) : Except MemoryError Memory → Reply × Memory
  | .ok next => (.done, next)
  | .error e => (.refused e, m)

/-- A creation answers with the new block. -/
def announce (made : BlockId × Memory) : Reply × Memory := (.created made.1, made.2)

/-- Every operation has a reply and a next memory, also one that is refused. -/
def perform (m : Memory) : Operation → Reply × Memory
  | .createVariable name size => announce (m.createVariable name size)
  | .createPointer name discipline pointee => announce (m.createPointer name discipline pointee)
  | .createObject name layout => announce (m.createObject name layout)
  | .allocate name size discipline => announce (m.allocate name size discipline)
  | .allocateObject name layout discipline => announce (m.allocateObject name layout discipline)
  | .deallocate id => m.settle (m.deallocate id)
  | .assignPointer pointer target => m.settle (m.assignPointer pointer target)
  | .copyShared source name =>
    match m.copyShared source name with
    | .ok made => announce made
    | .error e => (.refused e, m)
  | .moveUnique source dest => m.settle (m.moveUnique source dest)
  | .endScope =>
    match m.endScope? with
    | some exit => (.popped exit.popped, exit.memory)
    | none => (.popped none, m)
  | .reportLeaks => (.leaked m.leaks, m.reportLeaks)
  | .tick => (.done, m.tick)
  | .reset => (.done, m.reset)

/-- Whether a word can hold every owner count. -/
def isCountable (m : Memory) : Bool := m.blocks.all fun b => b.owners?.all (· ≤ largestWord)

/-- Performs an operation, unless it makes an owner count too large for a word. -/
def perform? (m : Memory) (operation : Operation) : Option (Reply × Memory) :=
  (some (m.perform operation)).filter (·.2.isCountable)

end Memory

end MemoryTrace
