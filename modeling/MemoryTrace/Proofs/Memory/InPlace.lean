import MemoryTrace.Proofs.Memory.Lost
import MemoryTrace.Proofs.Memory.WellFormed

namespace MemoryTrace

namespace Block

variable {b : Block} {id : BlockId}

theorem countOwners_of_uncounted (uncounted : b.owners? = none) (f : Nat → Nat) : b.countOwners f = b := by
  obtain ⟨_, _, _, _, storage, _, _, _⟩ := b
  cases storage with
  | sharedHeap owners => contradiction
  | stack | heap | uniqueHeap => rfl

theorem countOwners_congr {owners : Nat} (counts : b.owners? = some owners) {f g : Nat → Nat}
    (same : f owners = g owners) : b.countOwners f = b.countOwners g := by
  obtain ⟨_, _, _, _, storage, _, _, _⟩ := b
  cases storage with
  | sharedHeap =>
    obtain rfl := Option.some.inj counts
    simp only [countOwners, same]
  | stack | heap | uniqueHeap => contradiction

/-- A burial leaves a block alone that neither is the buried one nor points to it. -/
theorem bury_of_elsewhere (other : b.id ≠ id) (elsewhere : b.target? ≠ some id) : b.bury id = b := by
  rw [bury, if_neg other, forget, if_neg elsewhere]

theorem bury_of_target (other : b.id ≠ id) (aimed : b.target? = some id) : b.bury id = b.aim none := by
  rw [bury, if_neg other, forget, if_pos aimed]

theorem bury_self (elsewhere : b.target? ≠ some b.id) : b.bury b.id = b.die := by
  have same : b.die.target? = b.target? := target?_congr (countOwners_content ..)
  rw [bury, if_pos rfl, forget, if_neg (same ▸ elsewhere)]

theorem forget_aim (b : Block) (id : BlockId) (target : Option BlockId) :
    (b.forget id).aim target = b.aim target := by
  unfold forget
  split
  · rw [aim_aim]
  · rfl

/-- What becomes of a block when the block `id` is freed or only loses one of its owners. -/
def lose (id : BlockId) (freed : Bool) (b : Block) : Block :=
  if freed then b.bury id else if b.id = id then b.countOwners (· - 1) else b

theorem lose_true (id : BlockId) (b : Block) : b.lose id true = b.bury id := rfl

theorem lose_false (id : BlockId) (b : Block) :
    b.lose id false = if b.id = id then b.countOwners (· - 1) else b := rfl

@[simp] theorem lose_id (id : BlockId) (freed : Bool) (b : Block) : (b.lose id freed).id = b.id := by
  unfold lose
  split
  · simp
  · split <;> simp

/-- What is neither the block that loses an owner nor a pointer to it, if it is freed, is as it was. -/
theorem lose_of_other {freed : Bool} (other : b.id ≠ id) (elsewhere : freed → b.target? ≠ some id) :
    b.lose id freed = b := by
  cases freed with
  | true => exact bury_of_elsewhere other (elsewhere rfl)
  | false => rw [lose_false, if_neg other]

/-- A block that counts its owners does not point to itself. -/
theorem lose_self {owners : Nat} (plain : b.pointer? = none) (live : b.live) (counts : b.owners? = some owners) :
    b.lose b.id (owners = 1) = { b.countOwners (· - 1) with live := owners ≠ 1 } := by
  by_cases last : owners = 1
  · have elsewhere : b.target? ≠ some b.id := by simp [target?, plain]
    have none_left : (b.countOwners fun _ => 0) = b.countOwners (· - 1) :=
      countOwners_congr counts (by rw [last])
    rw [decide_eq_true last, decide_eq_false (not_not.mpr last), lose_true, bury_self elsewhere, die, none_left]
  · have alive : (b.countOwners (· - 1)).live = true := by rw [countOwners_live, live]
    rw [decide_eq_false last, decide_eq_true last, lose_false, if_pos rfl]
    generalize b.countOwners (· - 1) = left at alive
    obtain ⟨_, _, _, _, _, _, _, _⟩ := left
    obtain rfl := alive
    rfl

end Block

namespace Memory

variable {m next : Memory}

/-- Only a shared block has owners to lose. -/
theorem release_of_uncounted {id : BlockId} (uncounted : ∀ b, m.block? id = some b → b.owners? = none) :
    m.release id = m := by
  unfold release
  split
  · rfl
  · rename_i b found
    split
    · rename_i counts
      rw [uncounted b found] at counts
      contradiction
    · rfl

/-- A release leaves the stack, the heap and the clock alone. -/
theorem release_rest (m : Memory) (id : BlockId) :
    (m.release id).stackDepth = m.stackDepth ∧ (m.release id).nextHeapAddress = m.nextHeapAddress ∧
      (m.release id).clock = m.clock := by
  unfold release
  split
  · exact ⟨rfl, rfl, rfl⟩
  · split
    · rename_i counts
      dsimp only
      split
      · refine ⟨if_neg fun stack => ?_, rfl, rfl⟩
        rw [Block.owners?_of_isStack stack] at counts
        contradiction
      · exact ⟨rfl, rfl, rfl⟩
    · exact ⟨rfl, rfl, rfl⟩

/-- A block is not live after a change in place that ends it. -/
theorem not_hasLive_of_map {f : Block → Block} {id : BlockId} (blocks : next.blocks = m.blocks.map f)
    (ids : ∀ b, (f b).id = b.id) (dead : ∀ b, b.id = id → (f b).live = false) : ¬ next.HasLive id := by
  rintro ⟨c, there, same, live⟩
  rw [blocks] at there
  obtain ⟨b, _, rfl⟩ := List.mem_map.mp there
  rw [dead b ((ids b).symm.trans same)] at live
  contradiction

/-- Nothing points to a block after a change in place that takes every pointer away from it. -/
theorem untargeted_of_map {f : Block → Block} {id : BlockId} (blocks : next.blocks = m.blocks.map f)
    (elsewhere : ∀ b, (f b).target? ≠ some id) : next.Untargeted id := by
  intro c there
  rw [blocks] at there
  obtain ⟨b, _, rfl⟩ := List.mem_map.mp there
  exact elsewhere b

namespace Sound

variable (sound : m.Sound)

include sound

/-- After a change in place a number finds the block that it was changed to. -/
theorem block?_of_map {f : Block → Block} (blocks : next.blocks = m.blocks.map f) (ids : ∀ c, (f c).id = c.id)
    {b : Block} (member : b ∈ m.blocks) : next.block? b.id = some (f b) := by
  have mapped := block?_map m b.id ids
  rw [sound.block?_of_mem member] at mapped
  rw [block?, blocks]
  exact mapped

variable {b : Block} (member : b ∈ m.blocks) (live : b.live)

include member live

/-- A release of a counted block takes one owner, and frees the block if that was the last. The block dies then and
its pointers become null, while every other block is as it was. -/
theorem release_blocks {owners : Nat} (counts : b.owners? = some owners) (owned : 0 < owners) :
    (m.release b.id).blocks = m.blocks.map (Block.lose b.id (owners = 1)) := by
  have left : m.liveOwners? b.id = some owners := by simp [liveOwners?, sound.block?_of_mem member, live, counts]
  rw [Memory.release_blocks, left]
  obtain _ | _ | more := owners
  · contradiction
  · rfl
  · refine List.map_congr_left fun c there => ?_
    rw [decide_eq_false (by simp), Block.lose_false]
    split
    · rename_i same
      obtain rfl := sound.eq_of_id there member same
      exact Block.countOwners_congr counts rfl
    · rfl

/-- A block that can spare an owner loses one, and a block that has none is left alone. -/
theorem release_blocks_of_spare (spare : ∀ owners, b.owners? = some owners → 1 < owners) :
    (m.release b.id).blocks = m.blocks.map (Block.lose b.id false) := by
  cases counts : b.owners? with
  | some owners =>
    have more := spare owners counts
    rw [sound.release_blocks member live counts (Nat.lt_of_succ_lt more), decide_eq_false (Nat.ne_of_gt more)]
  | none =>
    have same : m.release b.id = m := release_of_uncounted fun c found => by
      rwa [Option.some.inj (found.symm.trans (sound.block?_of_mem member))]
    rw [same]
    refine (List.map_id' _).symm.trans (List.map_congr_left fun c there => ?_)
    rw [Block.lose_false]
    split
    · rename_i this
      rw [sound.eq_of_id there member this, Block.countOwners_of_uncounted counts]
    · rfl

/-- A block with several owners only loses one of them, and any other is freed. -/
theorem deallocate_blocks (done : m.deallocate b.id = .ok next) :
    next.blocks = m.blocks.map (Block.lose b.id (¬ b.owners?.any (· > 1))) := by
  obtain ⟨c, found, _, rfl⟩ := deallocate_eq_ok.mp done
  obtain rfl := Option.some.inj ((sound.block?_of_mem member).symm.trans found)
  split
  · rename_i several
    obtain ⟨owners, counts, more⟩ := (Option.any_eq_true ..).mp several
    have more := of_decide_eq_true more
    rw [sound.release_blocks member live counts (Nat.lt_of_succ_lt more)]
    simp [counts, Nat.ne_of_gt more, more]
  · rename_i few
    rw [free_blocks]
    exact List.map_congr_left fun c _ => by simp [Block.lose, few]

end Sound

end Memory

end MemoryTrace
