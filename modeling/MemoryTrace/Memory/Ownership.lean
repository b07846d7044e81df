import MemoryTrace.Memory.Basic

namespace MemoryTrace.Memory

/-- A new variable of a primitive type. Creating never fails. -/
def createVariable (m : Memory) (name : String) (size : Nat) : BlockId × Memory :=
  (m.nextId, (m.pushStack name size .value).record .allocate m.nextId s!"stack variable {name} ({size} bytes)")

/-- A new pointer is null. It is logged as the stack variable it is. -/
def createPointer (m : Memory) (name : String) (discipline : Discipline) (pointee : Option ClassLayout) :
    BlockId × Memory :=
  (m.nextId, (m.pushStack name pointerSize (.pointer { discipline, pointee })).record .allocate m.nextId
    s!"stack variable {name} ({pointerSize} bytes)")

/-- A new variable of a class. -/
def createObject (m : Memory) (name : String) (layout : ClassLayout) : BlockId × Memory :=
  (m.nextId, (m.pushStack name layout.size (.object layout)).record .construct m.nextId
    s!"object {name} of class {layout.name} ({layout.size} bytes)")

/-- A new heap block for a value. -/
def allocate (m : Memory) (name : String) (size : Nat) (discipline : Discipline) : BlockId × Memory :=
  (m.nextId, (m.pushHeap name size discipline .value).record .allocate m.nextId
    s!"heap allocation {name} ({discipline.label}, {size} bytes)")

/-- A new heap block for an object. -/
def allocateObject (m : Memory) (name : String) (layout : ClassLayout) (discipline : Discipline) :
    BlockId × Memory :=
  (m.nextId, (m.pushHeap name layout.size discipline (.object layout)).record .construct m.nextId
    s!"heap object {name} of class {layout.name} ({discipline.label}, {layout.size} bytes)")

/-- A shared block with several owners only loses one of them. -/
def deallocate (m : Memory) (id : BlockId) : Except MemoryError Memory := do
  let b ← m.liveBlock id
  return if b.owners?.any (· > 1) then m.release id else m.free b "freed"

/-- A live block that holds a pointer, with the pointer. -/
def livePointer (m : Memory) (id : BlockId) : Except MemoryError (Block × Pointer) := do
  let b ← m.liveBlock id
  match b.pointer? with
  | some p => return (b, p)
  | none => throw (.notAPointer id)

/-- How an event names a block, even one that does not exist. -/
def nameOf (m : Memory) (id : BlockId) : String := ((m.block? id).map (·.name)).getD s!"#{id}"

/-- A target has to be live. Aiming at nothing asks for none. -/
def checkTarget (m : Memory) : Option BlockId → Except MemoryError Unit
  | none => .ok ()
  | some id => (m.liveBlock id).map fun _ => ()

/-- A shared pointer stops owning what it points to. Other pointers own nothing by pointing. -/
def leaveTarget (m : Memory) (p : Pointer) : Memory :=
  match p.discipline, p.target with
  | .shared, some old => m.release old
  | _, _ => m

/-- Aims the pointer `p` of block `b` elsewhere. A shared pointer leaves its old target first and becomes
an owner of the new one. A block that no shared pointer has reached yet counts one owner already, and the
first pointer to reach it is that owner. -/
def reaim (m : Memory) (b : Block) (p : Pointer) (target : Option BlockId) : Memory :=
  let left := m.leaveTarget p
  let aimed := left.update b.id (·.aim target)
  match target with
  | none => aimed.record .assign b.id s!"{b.name} = nullptr"
  | some id =>
    let owned :=
      if p.discipline = .shared ∧ left.blocks.any (·.sharesOwnershipOf id) then aimed.retain id else aimed
    owned.record .assign b.id s!"{b.name} -> {owned.nameOf id}"

/-- Points `pointer` at `target`, or at nothing. Pointing where it already points changes nothing. -/
def assignPointer (m : Memory) (pointer : BlockId) (target : Option BlockId) : Except MemoryError Memory := do
  let (b, p) ← m.livePointer pointer
  m.checkTarget target
  return if p.target = target then m else m.reaim b p target

/-- Pushes a pointer that shares what the shared pointer `p` of block `b` points to. -/
def pushCopy (m : Memory) (b : Block) (p : Pointer) (name : String) : Memory :=
  let pushed := m.pushStack name pointerSize (.pointer p)
  match p.target with
  | none => pushed.record .copy m.nextId s!"shared_ptr copy {name} <- {b.name} (empty)"
  | some id =>
    let shared := pushed.retain id
    let owners := ((shared.block? id).bind (·.owners?)).getD 0
    shared.record .copy m.nextId s!"shared_ptr copy {name} <- {b.name} (ref count {owners})"

/-- A new stack pointer that shares what `source` points to. -/
def copyShared (m : Memory) (source : BlockId) (name : String) : Except MemoryError (BlockId × Memory) := do
  let (b, p) ← m.livePointer source
  if p.discipline = .shared then return (m.nextId, m.pushCopy b p name) else throw (.wrongDiscipline source .shared)

/-- Deallocates a block, if there is one. -/
def deallocateIfAny (m : Memory) : Option BlockId → Except MemoryError Memory
  | none => .ok m
  | some id => m.deallocate id

/-- What a live unique pointer owns. -/
def uniqueTarget (m : Memory) (id : BlockId) : Except MemoryError (Option BlockId) := do
  let (_, p) ← m.livePointer id
  if p.discipline = .unique then return p.target else throw (.wrongDiscipline id .unique)

/-- Hands what `source` owns to `dest`, which frees what it owned before, unless that is the same block. The
order of the checks shows in the error: both blocks must be live before either is asked what it holds. -/
def moveUnique (m : Memory) (source dest : BlockId) : Except MemoryError Memory :=
  if source = dest then .error (.selfMove source)
  else do
    let giver ← m.liveBlock source
    let taker ← m.liveBlock dest
    let moved ← m.uniqueTarget source
    let previous ← m.uniqueTarget dest
    let freed ← m.deallocateIfAny (previous.filter (moved ≠ some ·))
    return ((freed.update dest (·.aim moved)).update source (·.aim none)).record .move dest
      s!"unique_ptr move {giver.name} -> {taker.name}"

/-- What leaving a scope did. `refused` is the pointee a unique pointer could not free, which only
happens when that was the pointer itself. -/
structure ScopeExit where
  popped : BlockId
  refused : Option (BlockId × MemoryError) := none
  memory : Memory

/-- Pops a live stack block. An owning pointer takes its pointee with it: a unique pointer frees it, a shared
one stops owning it. Afterwards the owner is null, while a dead raw pointer keeps its target until that is
freed. -/
def leaveScope (m : Memory) (b : Block) : ScopeExit :=
  let popped := m.free b "goes out of scope"
  match b.pointer? with
  | some { discipline := .unique, target := some id, .. } =>
    match popped.deallocate id with
    | .ok freed => { popped := b.id, memory := freed.update b.id (·.aim none) }
    | .error e => { popped := b.id, refused := some (id, e), memory := popped.update b.id (·.aim none) }
  | some { discipline := .shared, target := some id, .. } =>
    { popped := b.id, memory := (popped.release id).update b.id (·.aim none) }
  | _ => { popped := b.id, memory := popped }

/-- Pops the newest live stack block, unless there is none. -/
def endScope? (m : Memory) : Option ScopeExit := m.stackBlocks.getLast?.map m.leaveScope

end MemoryTrace.Memory
