import MemoryTrace.Memory.Block

namespace MemoryTrace

/-- What happened to a block. -/
inductive EventKind
  | allocate
  | deallocate
  | assign
  | copy
  | move
  | construct
  | destruct
  | leak
  deriving DecidableEq, Repr

/-- A kind of event in the log. -/
def EventKind.label : EventKind → String
  | allocate => "ALLOC"
  | deallocate => "FREE"
  | assign => "ASSIGN"
  | copy => "COPY"
  | move => "MOVE"
  | construct => "CTOR"
  | destruct => "DTOR"
  | leak => "LEAK"

/-- `time` is the clock when the event happened. -/
structure Event where
  kind : EventKind
  block : BlockId
  description : String
  time : Nat
  deriving DecidableEq, Repr

/-- The last `capacity` events, oldest first. -/
structure EventLog where
  entries : List Event := []
  capacity : Nat := 100
  deriving DecidableEq, Repr

namespace EventLog

/-- The most entries a log has room for. It is made with the room for all of them, at forty bytes each, and
nothing is larger than a signed word can tell. -/
def largestCapacity : Nat := 0x7FFFFFFFFFFFFFFF / 40

/-- An empty log, if there is such room. -/
def ofCapacity? (capacity : Nat) : Option EventLog :=
  if capacity ≤ largestCapacity then some { capacity } else none

/-- The oldest entry makes room when the log is full, and a log of capacity zero stays empty. -/
def push (log : EventLog) (event : Event) : EventLog :=
  { log with entries := (log.entries ++ [event]).drop (log.entries.length + 1 - log.capacity) }

/-- Forgets the events and keeps the capacity. -/
def clear (log : EventLog) : EventLog := { log with entries := [] }

theorem length_push_le (log : EventLog) (event : Event) :
    (log.push event).entries.length ≤ log.capacity := by
  simp [push]
  omega

end EventLog

end MemoryTrace
