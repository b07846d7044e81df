import MemoryTrace.Memory.Leak
import MemoryTrace.Text.Column

namespace MemoryTrace

/-- Where a block lives, as the report puts it. -/
def Storage.reportLabel : Storage → String
  | .stack slot => s!"stack[{slot}]"
  | .heap => "heap"
  | .uniqueHeap => "heap (unique_ptr)"
  | .sharedHeap owners => s!"heap (shared_ptr, refs: {owners})"

/-- Where a pointer points, and nothing for any other block. -/
def Block.reportTarget (b : Block) : String :=
  match b.pointer? with
  | none => ""
  | some { target := some id, .. } => s!" -> #{id}"
  | some { target := none, .. } => " -> nullptr"

/-- One row of the table of blocks, freed blocks included. -/
def Block.reportLine (b : Block) : String :=
  let id := Column.left 3 (toString b.id)
  let name := Column.left 12 b.name
  let size := Column.right 4 (toString b.size)
  let storage := Column.left 28 b.storage.reportLabel
  let state := if b.live then "live" else "freed"
  s!"  #{id} {Column.address b.address} {name} {size} B  {storage} {state}{b.reportTarget}"

/-- One row of the log of events. -/
def Event.reportLine (e : Event) : String :=
  s!"  [{Column.right 3 (toString e.time)}] {Column.left 6 e.kind.label} {e.description}"

/-- The sums over memory, on one line. -/
def MemoryStats.reportLine (s : MemoryStats) : String :=
  s!"Stack: {s.stackBytes} B   Heap: {s.heapBytes} B   Live blocks: {s.liveBlocks}   " ++
    s!"Leaked: {s.leakedBlocks} block(s), {s.leakedBytes} B"

/-- The text report on the memory that a run ended in: its blocks, its events and its sums. -/
def Memory.report (m : Memory) : List String :=
  ["=== Memory Blocks ==="] ++ m.blocks.map Block.reportLine ++
    ["", "=== Events ==="] ++ m.events.entries.map Event.reportLine ++ ["", m.stats.reportLine]

end MemoryTrace
