import MemoryTrace.Session.Execution

namespace MemoryTrace

/-- The memory before one line ran, or at the end of a run, where `text` tells how it ended. -/
structure Snapshot where
  memory : Memory
  line : Option Nat
  text : String
  deriving DecidableEq, Repr

/-- What a snapshot is taken to occupy: fixed amounts for itself, each block and each event, and the bytes of
every text in them. -/
def Snapshot.estimatedSize (snapshot : Snapshot) : Nat :=
  136 + snapshot.text.utf8ByteSize +
    total (fun b : Block => 96 + b.name.utf8ByteSize) snapshot.memory.blocks +
    total (fun e : Event => 40 + e.description.utf8ByteSize) snapshot.memory.events.entries

/-- Why the history cannot grow, or the cursor cannot move. -/
inductive HistoryError
  | limitExceeded (current size limit : Nat)
  | atStart
  | atEnd
  deriving DecidableEq, Repr

/-- The text of a failure. -/
def HistoryError.message : HistoryError → String
  | limitExceeded current size limit => s!"snapshot memory limit exceeded: {current} + {size} > {limit}"
  | atStart => "already at the start of the history"
  | atEnd => "already at the end of the history"

/-- The snapshots of a run, with a cursor on one of them. `usage` is the estimated size of all. -/
structure History where
  snapshots : List Snapshot := []
  position : Nat := 0
  limit : Nat
  usage : Nat := 0
  deriving DecidableEq, Repr

namespace History

/-- Appends a snapshot, if the limit leaves room for it. -/
def push (h : History) (snapshot : Snapshot) : Except HistoryError History :=
  let size := snapshot.estimatedSize
  if h.usage + size ≤ h.limit then
    .ok { h with snapshots := h.snapshots ++ [snapshot], usage := h.usage + size }
  else .error (.limitExceeded h.usage size h.limit)

/-- The snapshot under the cursor. -/
def current? (h : History) : Option Snapshot := h.snapshots[h.position]?

/-- Whether no snapshot follows the cursor. -/
def isAtEnd (h : History) : Bool := h.snapshots.length ≤ h.position + 1

/-- Moves the cursor to the next snapshot. -/
def stepForward (h : History) : Except HistoryError History :=
  if h.isAtEnd then .error .atEnd else .ok { h with position := h.position + 1 }

/-- Moves the cursor to the previous snapshot. -/
def stepBackward (h : History) : Except HistoryError History :=
  if h.position = 0 then .error .atStart else .ok { h with position := h.position - 1 }

/-- Moves the cursor to the first snapshot. -/
def rewind (h : History) : History := { h with position := 0 }

/-- Moves the cursor to the last snapshot. -/
def jumpToEnd (h : History) : History := { h with position := h.snapshots.length - 1 }

end History

end MemoryTrace
