import MemoryTrace.Proofs.Memory.Frozen
import MemoryTrace.Proofs.Memory.Primitives

namespace MemoryTrace

namespace Block

/-- A block takes the room for what it holds. -/
def Fits (b : Block) : Prop := b.content.Takes b.size

/-- A block that counts its owners lives as long as it has any. -/
def LivesOwned (b : Block) : Prop := ∀ owners, b.owners? = some owners → (b.live ↔ 0 < owners)

theorem fits_of_form {b c : Block} (same : c.form = b.form) (fits : b.Fits) : c.Fits := by
  have kept (b : Block) : b.form.Fits ↔ b.Fits := by
    obtain ⟨_, _, _, _, storage, content, _, _⟩ := b
    cases storage <;> cases content <;> rfl
  rwa [← kept, same, kept]

/-- Whether a block lives owned is a matter of its life and its owners. -/
theorem LivesOwned.congr {b c : Block} (lives : b.LivesOwned) (live : c.live = b.live)
    (owners : c.owners? = b.owners?) : c.LivesOwned := by
  unfold LivesOwned
  rwa [live, owners]

theorem livesOwned_of_isStack {b : Block} (stack : b.isStack) : b.LivesOwned := by
  intro owners counts
  rw [owners?_of_isStack stack] at counts
  contradiction

/-- Freeing a block takes its last owner. -/
theorem LivesOwned.bury {b : Block} (lives : b.LivesOwned) (id : BlockId) : (b.bury id).LivesOwned := by
  intro owners counts
  rw [bury_owners?] at counts
  by_cases same : b.id = id
  · rw [if_pos same] at counts
    obtain ⟨_, _, rfl⟩ := Option.map_eq_some_iff.mp counts
    simp [same]
  · rw [if_neg same] at counts
    simp only [bury_live, same, ne_eq, not_false_eq_true, decide_true, Bool.and_true]
    exact lives owners counts

end Block

namespace Memory

variable {m next : Memory}

theorem stackBlocks_pushStack (m : Memory) (name : String) (size : Nat) (content : Content) :
    (m.pushStack name size content).stackBlocks = m.stackBlocks ++
      [{ id := m.nextId, name, size, address := stackStart + m.stackDepth * slotStride
         storage := .stack m.stackDepth, content }] := by
  simp only [stackBlocks, liveBlocks, Memory.pushStack, List.filter_append]
  rfl

theorem stackBlocks_pushHeap (m : Memory) (name : String) (size : Nat) (discipline : Discipline) (content : Content) :
    (m.pushHeap name size discipline content).stackBlocks = m.stackBlocks := by
  simp only [stackBlocks, liveBlocks, Memory.pushHeap, List.filter_append]
  cases discipline <;> exact List.append_nil _

/-- The depth of the stack as a count over all blocks. -/
theorem length_stackBlocks (m : Memory) : m.stackBlocks.length = m.blocks.countP fun b => b.isStack && b.live := by
  rw [stackBlocks, liveBlocks, List.filter_filter, List.countP_eq_length_filter]

/-- Changing blocks in place leaves the stack as deep as it was if no block dies. -/
theorem length_stackBlocks_map {f : Block → Block} (blocks : next.blocks = m.blocks.map f)
    (stack : ∀ b, (f b).isStack = b.isStack) (live : ∀ b, (f b).live = b.live) :
    next.stackBlocks.length = m.stackBlocks.length := by
  rw [length_stackBlocks, length_stackBlocks, blocks, List.countP_map]
  exact List.countP_congr fun b _ => by simp [stack, live]

/-- A block that dies leaves the stack if it was on it. -/
theorem length_stackBlocks_bury (distinct : (m.blocks.map (·.id)).Nodup) {b : Block} (member : b ∈ m.blocks)
    (live : b.live) (blocks : next.blocks = m.blocks.map (Block.bury b.id)) :
    next.stackBlocks.length = if b.isStack then m.stackBlocks.length - 1 else m.stackBlocks.length := by
  have counted := countP_update distinct member Block.die fun c => c.isStack && c.live
  have dead : next.blocks.countP (fun c => c.isStack && c.live) =
      (m.blocks.map fun c => if c.id = b.id then c.die else c).countP fun c => c.isStack && c.live := by
    rw [blocks, List.countP_map, List.countP_map]
    refine List.countP_congr fun c _ => ?_
    by_cases same : c.id = b.id <;> simp [same]
  rw [length_stackBlocks, length_stackBlocks, dead]
  cases stack : b.isStack with
  | true =>
    simp only [stack, live, Block.die_live, Bool.and_true, Bool.and_false, Bool.toNat_true, Bool.toNat_false] at counted
    rw [if_pos rfl]
    omega
  | false =>
    simp only [stack, Block.die_live, Bool.false_and, Bool.and_false, Bool.toNat_false] at counted
    rw [if_neg Bool.false_ne_true]
    omega

/-- The stack is as deep as it has live blocks, a block takes the room for what it holds, and one that counts its owners
lives as long as it has any. -/
structure WellFormed (m : Memory) : Prop where
  depth : m.stackDepth = m.stackBlocks.length
  fits : ∀ b ∈ m.blocks, b.Fits
  owned : ∀ b ∈ m.blocks, b.LivesOwned

theorem wellFormed_withCapacity (capacity : Nat) : (withCapacity capacity).WellFormed where
  depth := rfl
  fits := fun _ member => nomatch member
  owned := fun _ member => nomatch member

namespace WellFormed

variable (formed : m.WellFormed)

include formed

/-- Blocks may be changed in place if their forms stay and they have the owners that they need. -/
theorem map {f : Block → Block} (blocks : next.blocks = m.blocks.map f) (form : ∀ b, (f b).form = b.form)
    (depth : next.stackDepth = next.stackBlocks.length) (owned : ∀ b ∈ m.blocks, (f b).LivesOwned) :
    next.WellFormed where
  depth := depth
  fits := by
    intro c member
    rw [blocks] at member
    obtain ⟨b, old, rfl⟩ := List.mem_map.mp member
    exact Block.fits_of_form (form b) (formed.fits b old)
  owned := by
    intro c member
    rw [blocks] at member
    obtain ⟨b, old, rfl⟩ := List.mem_map.mp member
    exact owned b old

/-- One block may change if it neither dies nor wakes. -/
theorem update (id : BlockId) {f : Block → Block} (form : ∀ b, (f b).form = b.form) (live : ∀ b, (f b).live = b.live)
    (owned : ∀ b ∈ m.blocks, b.id = id → (f b).LivesOwned) : (m.update id f).WellFormed := by
  have changed (b : Block) : (if b.id = id then f b else b).form = b.form := by
    split
    · exact form b
    · rfl
  refine formed.map (update_blocks ..) changed ?_ fun b member => ?_
  · rw [length_stackBlocks_map (update_blocks ..) (fun b => ?_) fun b => ?_]
    · exact formed.depth
    · exact Block.of_form Block.form_isStack (changed b)
    · split
      · exact live b
      · rfl
  · split
    · rename_i same
      exact owned b member same
    · exact formed.owned b member

/-- A new block keeps the registry well formed if it fits and has the owners that it needs. -/
theorem push {b : Block} (blocks : next.blocks = m.blocks ++ [b]) (fits : b.Fits) (owned : b.LivesOwned)
    (depth : next.stackDepth = next.stackBlocks.length) : next.WellFormed where
  depth := depth
  fits := by
    intro c member
    rw [blocks] at member
    rcases List.mem_append.mp member with old | new
    · exact formed.fits c old
    · rwa [List.mem_singleton.mp new]
  owned := by
    intro c member
    rw [blocks] at member
    rcases List.mem_append.mp member with old | new
    · exact formed.owned c old
    · rwa [List.mem_singleton.mp new]

theorem pushStack (name : String) {size : Nat} {content : Content} (fits : content.Takes size) :
    (m.pushStack name size content).WellFormed := by
  refine formed.push rfl fits (Block.livesOwned_of_isStack rfl) ?_
  rw [stackBlocks_pushStack, List.length_append, ← formed.depth]
  rfl

theorem pushHeap (name : String) {size : Nat} (discipline : Discipline) {content : Content}
    (fits : content.Takes size) : (m.pushHeap name size discipline content).WellFormed := by
  refine formed.push rfl fits ?_ ?_
  · intro owners counts
    cases discipline <;> cases counts
    simp
  · rw [stackBlocks_pushHeap]
    exact formed.depth

/-- Freeing a live block takes one from the depth if that lay on the stack. -/
theorem free (sound : m.Sound) {b : Block} (member : b ∈ m.blocks) (live : b.live) (reason : String) :
    (m.free b reason).WellFormed := by
  refine formed.map (free_blocks m b reason) (Block.form_bury b.id) ?_ fun c old => (formed.owned c old).bury b.id
  rw [length_stackBlocks_bury sound.distinct member live (free_blocks m b reason), ← formed.depth]
  rfl

theorem aim (pointer : BlockId) (target : Option BlockId) : (m.update pointer (·.aim target)).WellFormed :=
  formed.update pointer (by simp) (by simp) fun b member _ => (formed.owned b member).congr (by simp) (by simp)

/-- An owner count of a live block may become any other that leaves it an owner. -/
theorem countOwners (sound : m.Sound) {id : BlockId} (alive : m.HasLive id) {f : Nat → Nat}
    (owned : ∀ owners, 0 < f owners) : (m.update id (Block.countOwners f)).WellFormed := by
  refine formed.update id (by simp) (by simp) fun b member same owners counts => ?_
  obtain ⟨c, there, rfl, live⟩ := alive
  obtain rfl := sound.eq_of_id member there same
  rw [Block.countOwners_owners?] at counts
  obtain ⟨before, _, rfl⟩ := Option.map_eq_some_iff.mp counts
  simp [live, owned before]

theorem tick : m.tick.WellFormed := by
  refine formed.map rfl Block.form_age ?_ fun b member => ?_
  · rw [length_stackBlocks_map rfl (fun b => ?_) Block.age_live]
    · exact formed.depth
    · exact Block.isStack_congr (Block.age_storage b)
  · exact (formed.owned b member).congr b.age_live (Block.owners?_congr b.age_storage)

end WellFormed

theorem Primitive.wellFormed (step : m.Primitive next) (sound : m.Sound) (formed : m.WellFormed) : next.WellFormed := by
  cases step with
  | pushStack name size content fits => exact formed.pushStack name fits
  | pushHeap name size discipline content fits => exact formed.pushHeap name discipline fits
  | free member live reason => exact formed.free sound member live reason
  | aim pointer target => exact formed.aim pointer target
  | countOwners alive owned => exact formed.countOwners sound alive owned
  | record => exact ⟨formed.depth, formed.fits, formed.owned⟩
  | tick => exact formed.tick

/-- After any operations the stack is as deep as it has live blocks, blocks take the room for what they hold, and
exactly the live shared blocks have owners. -/
theorem Reachable.wellFormed (reach : m.Reachable) : m.WellFormed :=
  reach.holds wellFormed_withCapacity fun _ _ sound step => step.wellFormed sound

/-- After any operations, refused ones included, blocks are numbered from 1 in the order of their creation, the stack is
as deep as it has live blocks, pointers lie on the stack and take the room of a pointer, objects take that of their
layout, and of the shared blocks just those are live that have an owner. -/
theorem registry_well_formed (reach : m.Reachable) :
    (∀ i b, m.blocks[i]? = some b → b.id = i + 1) ∧ m.nextId = m.blocks.length + 1 ∧
    m.stackDepth = m.stackBlocks.length ∧
    (∀ b ∈ m.blocks, ∀ p, b.content = .pointer p → b.isStack ∧ b.size = pointerSize) ∧
    (∀ b ∈ m.blocks, ∀ layout, b.content = .object layout → b.size = layout.size) ∧
    (∀ b ∈ m.blocks, ∀ owners, b.storage = .sharedHeap owners → (b.live ↔ 1 ≤ owners)) := by
  have sound := reach.sound
  have formed := reach.wellFormed
  refine ⟨fun i b there => ?_, sound.next, formed.depth, fun b member p holds => ⟨?_, ?_⟩,
    fun b member layout holds => ?_, fun b member owners counts => ?_⟩
  · have numbered : (m.blocks.map (·.id))[i]? = some b.id := by rw [List.getElem?_map, there, Option.map_some]
    rw [sound.numbered] at numbered
    obtain ⟨_, same⟩ := List.getElem?_eq_some_iff.mp numbered
    rw [List.getElem_range', Nat.one_mul, Nat.add_comm] at same
    exact same.symm
  · exact sound.pointersOnStack b member (by simp [Block.pointer?, holds])
  · have fits := formed.fits b member
    rwa [Block.Fits, holds] at fits
  · have fits := formed.fits b member
    rwa [Block.Fits, holds] at fits
  · exact formed.owned b member owners (by rw [Block.owners?, counts])

/-- The run frees a block at the bottom of the stack and a shared pointer that is an owner. The shared block lives on
with an owner more than it has pointers. -/
theorem registry_well_formed_of_lost_owner :
    ∃ (m : Memory) (b : Block), m.Reachable ∧ m.blocks[3]? = some b ∧ b.id = 4 ∧ b.storage = .sharedHeap 2 ∧ b.live ∧
      m.blocks.length = 6 ∧ m.nextId = 7 ∧ m.stackBlocks.length = 2 ∧ m.stackDepth = 2 := by
  let m := (withCapacity 32).run [.createVariable "x" 4, .createObject "o" { name := "A", size := 12 },
    .createPointer "p" .shared none, .allocate "*p" 4 .shared, .assignPointer 3 (some 4), .copyShared 3 "q",
    .deallocate 1, .deallocate 3, .deallocate 9, .allocateObject "a" { name := "A", size := 12 } .unique]
  have reach : m.Reachable := Reachable.run (.fresh 32) _
  obtain ⟨⟨b, member, there, counts⟩, two, six⟩ :
      (∃ b ∈ m.blocks, m.blocks[3]? = some b ∧ b.storage = .sharedHeap 2) ∧ m.stackBlocks.length = 2 ∧
        m.blocks.length = 6 := by decide +kernel
  obtain ⟨numbered, next, depth, _, _, owned⟩ := registry_well_formed reach
  exact ⟨m, b, reach, there, numbered 3 b there, counts, (owned b member 2 counts).mpr (by decide), six,
    next.trans (congrArg (· + 1) six), two, depth.trans two⟩

end Memory

end MemoryTrace
