import Mathlib.Logic.Relation
import MemoryTrace.Proofs.Memory.Aiming

namespace MemoryTrace

/-- Whether the event brings a block into being. -/
def EventKind.creates : EventKind → Bool
  | allocate | construct | copy => true
  | _ => false

/-- Whether the event ends the life of a block. -/
def EventKind.frees : EventKind → Bool
  | deallocate | destruct => true
  | _ => false

/-- No event both begins a life and ends one. -/
theorem EventKind.frees_of_creates {kind : EventKind} (created : kind.creates) : kind.frees = false := by
  cases kind with
  | deallocate | destruct => contradiction
  | _ => rfl

namespace Memory

variable {m next : Memory}

/-- One change of the blocks, with what is logged about it. -/
inductive Change (m next : Memory) : Prop
  | create {b : Block} {e : Event} (blocks : next.blocks = m.blocks ++ [b]) (live : b.live)
      (later : ∀ c ∈ m.blocks, c.id < b.id) (logged : next.events = m.events.push e)
      (kind : e.kind.creates) (about : e.block = b.id)
  | free {id : BlockId} {e : Event} (alive : m.HasLive id)
      (blocks : next.blocks = m.blocks.map (Block.bury id)) (logged : next.events = m.events.push e)
      (kind : e.kind.frees) (about : e.block = id)
  | alter {f : Block → Block} (blocks : next.blocks = m.blocks.map f) (becomes : ∀ b : Block, b.Becomes (f b))
      (lives : ∀ b, (f b).live = b.live)
      (logged : next.events = m.events ∨
        ∃ e, next.events = m.events.push e ∧ e.kind.creates = false ∧ e.kind.frees = false)

/-- Any number of changes, one after the other. -/
abbrev Changes : Memory → Memory → Prop := Relation.ReflTransGen Change

namespace Changes

/-- A block may change in place without an event, as long as it neither dies nor wakes. -/
theorem update (m : Memory) (id : BlockId) {f : Block → Block} (becomes : ∀ b : Block, b.Becomes (f b))
    (lives : ∀ b, (f b).live = b.live) : m.Changes (m.update id f) := by
  refine .single (.alter (update_blocks m id f) (fun b => ?_) (fun b => ?_) (.inl rfl))
  · split
    · exact becomes b
    · exact .refl b
  · split
    · exact lives b
    · rfl

theorem aim (m : Memory) (pointer : BlockId) (target : Option BlockId) :
    m.Changes (m.update pointer (·.aim target)) :=
  update m pointer (fun b => b.becomes_aim target) (by simp)

theorem countOwners (m : Memory) (id : BlockId) (f : Nat → Nat) :
    m.Changes (m.update id (Block.countOwners f)) :=
  update m id (fun b => b.becomes_countOwners f) (by simp)

/-- What neither creates nor frees a block is logged on the side. -/
theorem record (m : Memory) (kind : EventKind) (aside : kind.creates = false ∧ kind.frees = false) (id : BlockId)
    (description : String) : m.Changes (m.record kind id description) :=
  .single (.alter (f := fun b => b) (by simp) Block.Becomes.refl (fun _ => rfl) (.inr ⟨_, rfl, aside⟩))

theorem free {b : Block} (alive : m.HasLive b.id) (reason : String) : m.Changes (m.free b reason) := by
  refine .single (.free alive (free_blocks m b reason) rfl ?_ rfl)
  cases b.isObject <;> rfl

/-- A release is at most one change of a count and one death. -/
theorem release (m : Memory) (id : BlockId) : m.Changes (m.release id) := by
  unfold Memory.release
  split
  · exact .refl
  · rename_i b found
    split
    · rename_i owners live _
      have counted := (countOwners m id fun _ => owners).trans (record _ .assign ⟨rfl, rfl⟩ id
        s!"ref count of {b.name} is now {owners}")
      dsimp only
      split
      · refine counted.trans (free ?_ _)
        rw [(block?_some found).2]
        exact (hasLive_of_block? found live).countOwners rfl
      · exact counted
    · exact .refl

theorem deallocate {id : BlockId} (done : m.deallocate id = .ok next) : m.Changes next := by
  obtain ⟨b, found, live, rfl⟩ := deallocate_eq_ok.mp done
  split
  · exact release m id
  · refine free ?_ _
    rw [(block?_some found).2]
    exact hasLive_of_block? found live

theorem deallocateIfAny {target : Option BlockId} (done : m.deallocateIfAny target = .ok next) : m.Changes next := by
  cases target with
  | none => exact Except.ok.inj done ▸ .refl
  | some id => exact deallocate done

/-- An assignment frees its old target or changes blocks in place. -/
theorem assignPointer {pointer : BlockId} {target : Option BlockId}
    (done : m.assignPointer pointer target = .ok next) : m.Changes next := by
  obtain ⟨b, p, _, _, rfl⟩ := assignPointer_eq_ok.mp done
  have left : m.Changes (m.leaveTarget p) := by
    unfold leaveTarget
    split
    · exact release ..
    · exact .refl
  have aimed := left.trans (aim _ b.id target)
  split
  · exact .refl
  · unfold reaim
    dsimp only
    split
    · exact aimed.trans (record _ .assign ⟨rfl, rfl⟩ ..)
    · split
      · exact (aimed.trans (countOwners ..)).trans (record _ .assign ⟨rfl, rfl⟩ ..)
      · exact aimed.trans (record _ .assign ⟨rfl, rfl⟩ ..)

/-- A move frees what the taker owned, and aims two pointers. -/
theorem moveUnique {source dest : BlockId} (done : m.moveUnique source dest = .ok next) : m.Changes next := by
  obtain ⟨_, _, _, _, _, freed, _, _, _, _, released, rfl⟩ := moveUnique_eq_ok.mp done
  exact (((deallocateIfAny released).trans (aim ..)).trans (aim ..)).trans (record _ .move ⟨rfl, rfl⟩ ..)

/-- Leaving a scope frees the block, and perhaps what it owned. -/
theorem leaveScope {b : Block} (alive : m.HasLive b.id) : m.Changes (m.leaveScope b).memory := by
  have popped := free alive "goes out of scope"
  unfold Memory.leaveScope
  dsimp only
  split
  · split
    · rename_i freed done
      exact (popped.trans (deallocate done)).trans (aim ..)
    · exact popped.trans (aim ..)
  · exact (popped.trans (release ..)).trans (aim ..)
  · exact popped

theorem reportLeaks (m : Memory) : m.Changes m.reportLeaks := by
  unfold Memory.reportLeaks
  induction m.leakedBlocks generalizing m with
  | nil => exact .refl
  | cons b rest ih => exact (record m .leak ⟨rfl, rfl⟩ b.id _).trans (ih _)

theorem tick (m : Memory) : m.Changes m.tick :=
  .single (.alter (f := Block.age) rfl Block.becomes_age (by simp) (.inl rfl))

variable (sound : m.Sound)

include sound

/-- A block that is made is logged as made. -/
theorem create {b : Block} (kind : EventKind) (kinds : kind.creates) (live : b.live) (id : b.id = m.nextId)
    (blocks : next.blocks = m.blocks ++ [b]) {description : String} {time : Nat}
    (logged : next.events = m.events.push { kind, block := b.id, description, time }) : m.Changes next :=
  .single (.create blocks live (fun _ member => id ▸ sound.id_lt_next member) logged kinds rfl)

theorem pushCopy (b : Block) (p : Pointer) (name : String) : m.Changes (m.pushCopy b p name) := by
  cases aimed : p.target with
  | none =>
    unfold Memory.pushCopy
    rw [aimed]
    exact create sound .copy rfl rfl rfl rfl rfl
  | some id =>
    obtain ⟨c, blocks, number, live, _⟩ := pushCopy_blocks m b aimed name
    have logged : ∃ description time, (m.pushCopy b p name).events =
        m.events.push { kind := .copy, block := c.id, description, time } := by
      unfold Memory.pushCopy
      rw [aimed, number]
      exact ⟨_, _, rfl⟩
    obtain ⟨_, _, logged⟩ := logged
    exact (countOwners m id (· + 1)).trans (create (sound.retain id) .copy rfl live number blocks logged)

/-- What every operation but a reset does to the blocks is a run of changes, each of them logged. -/
theorem perform {operation : Operation} (goes_on : operation ≠ .reset) : m.Changes (m.perform operation).2 := by
  cases operation with
  | createVariable | createPointer | allocate => exact create sound .allocate rfl rfl rfl rfl rfl
  | createObject | allocateObject => exact create sound .construct rfl rfl rfl rfl rfl
  | deallocate id => exact settle_keeps m.Changes .refl fun _ => deallocate
  | assignPointer pointer target => exact settle_keeps m.Changes .refl fun _ => assignPointer
  | copyShared source name => exact perform_copyShared_keeps m.Changes .refl fun b p _ _ => pushCopy sound b p name
  | moveUnique source dest => exact settle_keeps m.Changes .refl fun _ => moveUnique
  | endScope => exact perform_endScope_keeps m.Changes .refl fun b member live _ => leaveScope ⟨b, member, rfl, live⟩
  | reportLeaks => exact reportLeaks m
  | tick => exact tick m
  | reset => contradiction

end Changes

/-- A block that is there stays on record, dead or alive. -/
theorem Change.becomes (change : m.Change next) {b : Block} (member : b ∈ m.blocks) :
    ∃ c ∈ next.blocks, b.Becomes c := by
  cases change with
  | create blocks => exact ⟨b, blocks ▸ List.mem_append_left _ member, .refl b⟩
  | @free id _ _ blocks => exact ⟨b.bury id, blocks ▸ List.mem_map_of_mem member, b.becomes_bury id⟩
  | @alter f blocks becomes => exact ⟨f b, blocks ▸ List.mem_map_of_mem member, becomes b⟩

theorem Changes.becomes (changes : m.Changes next) {b : Block} (member : b ∈ m.blocks) :
    ∃ c ∈ next.blocks, b.Becomes c := by
  induction changes with
  | refl => exact ⟨b, member, .refl b⟩
  | tail _ last ih =>
    obtain ⟨c, there, first⟩ := ih
    obtain ⟨d, member, second⟩ := last.becomes there
    exact ⟨d, member, first.trans second⟩

end Memory

end MemoryTrace
