import MemoryTrace.Memory.Event

namespace MemoryTrace

/-- The address of the first heap block. -/
def heapStart : Nat := 0x10000000

/-- The address of the lowest stack slot. -/
def stackStart : Nat := 0x7FFF0000

/-- Stack slots are eight bytes apart, whatever they hold. -/
def slotStride : Nat := 8

/-- Every pointer takes eight bytes, whatever it points to and whoever owns that. -/
def pointerSize : Nat := 8

/-- Every block ever created, the freed ones included, with the log of what happened to them. The numbers of blocks
are unbounded here. In 32 bits they stay apart as long as a run creates fewer than 2^32 - 1 blocks. -/
structure Memory where
  blocks : List Block := []
  events : EventLog := {}
  nextId : BlockId := 1
  stackDepth : Nat := 0
  nextHeapAddress : Nat := heapStart
  clock : Nat := 0
  deriving DecidableEq, Repr

/-- Why an operation is refused. Creation never is. Every other operation checks all that it needs before it changes
anything. -/
inductive MemoryError
  | unknownBlock (id : BlockId)
  | alreadyFreed (id : BlockId)
  | notAPointer (id : BlockId)
  | wrongDiscipline (id : BlockId) (expected : Discipline)
  | selfMove (id : BlockId)
  deriving DecidableEq, Repr

/-- The text of a refusal. It names blocks by number. -/
def MemoryError.message : MemoryError → String
  | unknownBlock id => s!"unknown block #{id}"
  | alreadyFreed id => s!"block #{id} has already been freed"
  | notAPointer id => s!"block #{id} is not a pointer"
  | wrongDiscipline id expected => s!"block #{id} is not a {expected.label}"
  | selfMove id => s!"cannot move unique_ptr #{id} into itself"

namespace Memory

/-- A fresh memory whose log keeps `capacity` events. -/
def withCapacity (capacity : Nat) : Memory := { events := { capacity } }

/-- Starts over, numbering included. Only the capacity of the log stays. -/
def reset (m : Memory) : Memory := withCapacity m.events.capacity

/-- The block of that number. -/
def block? (m : Memory) (id : BlockId) : Option Block := m.blocks.find? (·.id = id)

/-- Changes one block. -/
def update (m : Memory) (id : BlockId) (f : Block → Block) : Memory :=
  { m with blocks := m.blocks.map fun b => if b.id = id then f b else b }

/-- Logs an event at the present time. -/
def record (m : Memory) (kind : EventKind) (block : BlockId) (description : String) : Memory :=
  { m with events := m.events.push { kind, block, description, time := m.clock } }

/-- Advances the clock. Every live block ages with it. -/
def tick (m : Memory) : Memory := { m with clock := m.clock + 1, blocks := m.blocks.map Block.age }

/-- The blocks that are not freed, oldest first. -/
def liveBlocks (m : Memory) : List Block := m.blocks.filter (·.live)

/-- The variables in scope. -/
def stackBlocks (m : Memory) : List Block := m.liveBlocks.filter (·.isStack)

/-- The allocations that are not freed. -/
def heapBlocks (m : Memory) : List Block := m.liveBlocks.filter (!·.isStack)

/-- A block by number, for an operation that needs it to be live. -/
def liveBlock (m : Memory) (id : BlockId) : Except MemoryError Block :=
  match m.block? id with
  | none => .error (.unknownBlock id)
  | some b => if b.live then .ok b else .error (.alreadyFreed id)

/-- A new block on top of the stack. Its slot is the depth of the stack. -/
def pushStack (m : Memory) (name : String) (size : Nat) (content : Content) : Memory :=
  let block : Block :=
    { id := m.nextId, name, size, address := stackStart + m.stackDepth * slotStride
      storage := .stack m.stackDepth, content }
  { m with blocks := m.blocks ++ [block], nextId := m.nextId + 1, stackDepth := m.stackDepth + 1 }

/-- The room a heap block takes: a multiple of eight, and some even for an empty block, so that
addresses stay aligned and distinct. Where the rounding leaves the word, it saturates first. -/
def heapStep (size : Nat) : Nat := saturate (max size 1 + 7) / 8 * 8

/-- A new block at the next free heap address. -/
def pushHeap (m : Memory) (name : String) (size : Nat) (discipline : Discipline) (content : Content) : Memory :=
  let block : Block :=
    { id := m.nextId, name, size, address := m.nextHeapAddress, storage := .heapFor discipline, content }
  { m with
    blocks := m.blocks ++ [block]
    nextId := m.nextId + 1
    nextHeapAddress := saturate (m.nextHeapAddress + heapStep size) }

/-- Marks a block dead and makes every pointer to it null, those of dead blocks too. -/
def free (m : Memory) (b : Block) (reason : String) : Memory :=
  let kind := if b.isObject then EventKind.destruct else EventKind.deallocate
  let buried := (m.update b.id Block.die).record kind b.id s!"{b.name} {reason}"
  { buried with
    blocks := buried.blocks.map (Block.forget b.id)
    stackDepth := if b.isStack then m.stackDepth - 1 else m.stackDepth }

/-- A live shared block loses one owner. The last one to go frees it. -/
def release (m : Memory) (id : BlockId) : Memory :=
  match m.block? id with
  | none => m
  | some b =>
    match b.live, b.owners? with
    | true, some (owners + 1) =>
      let counted := (m.update id (Block.countOwners fun _ => owners)).record .assign id
        s!"ref count of {b.name} is now {owners}"
      if owners = 0 then counted.free b "freed (last shared owner gone)" else counted
    | _, _ => m

/-- A shared block gains one owner. -/
def retain (m : Memory) (id : BlockId) : Memory := m.update id (Block.countOwners (· + 1))

end Memory

end MemoryTrace
