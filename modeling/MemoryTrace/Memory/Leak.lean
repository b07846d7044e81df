import MemoryTrace.Memory.Ownership

namespace MemoryTrace

/-- What a live block points to is still reachable. -/
def Memory.isReferenced (m : Memory) (id : BlockId) : Bool :=
  m.blocks.any fun b => b.live && b.target? = some id

/-- A raw heap block that no live pointer reaches can never be freed. Blocks under the other
disciplines do not count: their owners are trusted to free them. -/
def Memory.leakedBlocks (m : Memory) : List Block :=
  m.blocks.filter fun b => b.live && b.storage = .heap && !m.isReferenced b.id

/-- The leaked blocks by number. -/
def Memory.leaks (m : Memory) : List BlockId := m.leakedBlocks.map (·.id)

/-- Logs one event for every leak. -/
def Memory.reportLeaks (m : Memory) : Memory :=
  m.leakedBlocks.foldl (fun m b => m.record .leak b.id s!"leak: {b.name} ({b.size} bytes) is unreachable") m

/-- What a report says of memory as a whole. -/
structure MemoryStats where
  totalBlocks : Nat := 0
  liveBlocks : Nat := 0
  stackBytes : Nat := 0
  heapBytes : Nat := 0
  leakedBlocks : Nat := 0
  leakedBytes : Nat := 0
  deriving DecidableEq, Repr

/-- Counts a live block. -/
def MemoryStats.count (s : MemoryStats) (b : Block) : MemoryStats :=
  let counted := { s with liveBlocks := s.liveBlocks + 1 }
  if b.isStack then { counted with stackBytes := saturate (s.stackBytes + b.size) }
  else { counted with heapBytes := saturate (s.heapBytes + b.size) }

/-- One pass over the live blocks, and one over the leaks. Bytes saturate at every block. -/
def Memory.stats (m : Memory) : MemoryStats :=
  let counted := m.liveBlocks.foldl MemoryStats.count { totalBlocks := m.blocks.length, leakedBlocks := m.leaks.length }
  { counted with
    leakedBytes := (m.leaks.filterMap m.block?).foldl (fun bytes b => saturate (bytes + b.size)) 0 }

end MemoryTrace
