import MemoryTrace.Memory.Layout

namespace MemoryTrace

/-- Blocks are numbered from 1 in the order of their creation, and a number is never used again. Numbers are
unbounded. A machine that keeps them in 32 bits gives the same ones as long as there are fewer than 2^32 - 1
blocks. -/
abbrev BlockId := Nat

/-- Who frees: the program itself, the only owner, or the last of several owners. -/
inductive Discipline
  | raw
  | unique
  | shared
  deriving DecidableEq, Repr

/-- A discipline as its pointers are called. -/
def Discipline.label : Discipline → String
  | raw => "raw pointer"
  | unique => "unique_ptr"
  | shared => "shared_ptr"

/-- Where a block lives. Only a shared heap block counts its owners. -/
inductive Storage
  | stack (slot : Nat)
  | heap
  | uniqueHeap
  | sharedHeap (owners : Nat)
  deriving DecidableEq, Repr

/-- A new shared block already counts the owner it is made for. -/
def Storage.heapFor : Discipline → Storage
  | .raw => .heap
  | .unique => .uniqueHeap
  | .shared => .sharedHeap 1

/-- A pointer names its target by number. The target's layout is that of its declaration. -/
structure Pointer where
  discipline : Discipline
  target : Option BlockId := none
  pointee : Option ClassLayout := none
  deriving DecidableEq, Repr

/-- What a block holds. -/
inductive Content
  | value
  | object (layout : ClassLayout)
  | pointer (pointer : Pointer)
  deriving DecidableEq, Repr

/-- One stack slot or heap allocation. A freed block stays on record with `live` off, and its
`lifetime`, the clock ticks it has lived through, stands still. -/
structure Block where
  id : BlockId
  name : String
  size : Nat
  address : Nat
  storage : Storage
  content : Content
  live : Bool := true
  lifetime : Nat := 0
  deriving DecidableEq, Repr

namespace Block

/-- The discipline that frees the block itself, whatever it may point to. -/
def managedBy (b : Block) : Discipline :=
  match b.storage with
  | .uniqueHeap => .unique
  | .sharedHeap _ => .shared
  | .stack _ | .heap => .raw

/-- How many owners are counted, for a block that counts them. -/
def owners? (b : Block) : Option Nat :=
  match b.storage with
  | .sharedHeap owners => some owners
  | _ => none

/-- Whether the block is a variable. -/
def isStack (b : Block) : Bool :=
  match b.storage with
  | .stack _ => true
  | _ => false

/-- Whether the block holds an object of a class. -/
def isObject (b : Block) : Bool :=
  match b.content with
  | .object _ => true
  | _ => false

/-- The pointer held here. -/
def pointer? (b : Block) : Option Pointer :=
  match b.content with
  | .pointer p => some p
  | _ => none

/-- What the pointer held here points to. -/
def target? (b : Block) : Option BlockId := b.pointer?.bind (·.target)

/-- The layout of the object held here or declared to be pointed to. -/
def layout? (b : Block) : Option ClassLayout :=
  match b.content with
  | .object layout => some layout
  | .pointer p => p.pointee
  | .value => none

/-- Whether this is a live shared pointer to `id`. -/
def sharesOwnershipOf (b : Block) (id : BlockId) : Bool :=
  b.live && b.pointer?.any fun p => p.discipline = .shared ∧ p.target = some id

/-- Aims a pointer. Other contents are left alone. -/
def aim (b : Block) (target : Option BlockId) : Block :=
  match b.content with
  | .pointer p => { b with content := .pointer { p with target } }
  | _ => b

/-- A pointer to `id` becomes null. -/
def forget (id : BlockId) (b : Block) : Block := if b.target? = some id then b.aim none else b

/-- Changes the owner count of a shared block. -/
def countOwners (f : Nat → Nat) (b : Block) : Block :=
  match b.storage with
  | .sharedHeap owners => { b with storage := .sharedHeap (f owners) }
  | _ => b

/-- A freed block has no owners. -/
def die (b : Block) : Block := { b.countOwners fun _ => 0 with live := false }

/-- Only live blocks age. -/
def age (b : Block) : Block := if b.live then { b with lifetime := b.lifetime + 1 } else b

@[simp] theorem aim_id (b : Block) (target : Option BlockId) : (b.aim target).id = b.id := by
  unfold aim; split <;> rfl

@[simp] theorem aim_live (b : Block) (target : Option BlockId) : (b.aim target).live = b.live := by
  unfold aim; split <;> rfl

@[simp] theorem aim_storage (b : Block) (target : Option BlockId) : (b.aim target).storage = b.storage := by
  unfold aim; split <;> rfl

@[simp] theorem forget_id (id : BlockId) (b : Block) : (b.forget id).id = b.id := by
  unfold forget; split <;> simp

@[simp] theorem forget_live (id : BlockId) (b : Block) : (b.forget id).live = b.live := by
  unfold forget; split <;> simp

@[simp] theorem countOwners_id (f : Nat → Nat) (b : Block) : (b.countOwners f).id = b.id := by
  unfold countOwners; split <;> rfl

@[simp] theorem countOwners_live (f : Nat → Nat) (b : Block) : (b.countOwners f).live = b.live := by
  unfold countOwners; split <;> rfl

@[simp] theorem die_id (b : Block) : b.die.id = b.id := by simp [die]

@[simp] theorem die_live (b : Block) : b.die.live = false := rfl

@[simp] theorem age_id (b : Block) : b.age.id = b.id := by unfold age; split <;> rfl

@[simp] theorem age_live (b : Block) : b.age.live = b.live := by unfold age; split <;> rfl

end Block

end MemoryTrace
