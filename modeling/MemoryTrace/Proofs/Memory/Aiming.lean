import MemoryTrace.Proofs.Memory.Holders

namespace MemoryTrace

namespace Block

@[simp] theorem aim_aim (b : Block) (first second : Option BlockId) :
    (b.aim first).aim second = b.aim second := by
  obtain ⟨_, _, _, _, _, content, _, _⟩ := b
  cases content <;> rfl

theorem aim_countOwners (b : Block) (target : Option BlockId) (f : Nat → Nat) :
    (b.aim target).countOwners f = (b.countOwners f).aim target := by
  obtain ⟨_, _, _, _, storage, content, _, _⟩ := b
  cases storage <;> cases content <;> rfl

theorem aim_die (b : Block) (target : Option BlockId) : (b.aim target).die = b.die.aim target := by
  obtain ⟨_, _, _, _, storage, content, _, _⟩ := b
  cases storage <;> cases content <;> rfl

theorem aim_none_forget (b : Block) (id : BlockId) : (b.aim none).forget id = b.aim none := by
  refine if_neg fun aimed => ?_
  have same := target?_aim aimed
  contradiction

theorem forget_aim_none (b : Block) (id : BlockId) : (b.forget id).aim none = b.aim none := by
  unfold forget
  split
  · rw [aim_aim]
  · rfl

/-- Whether a pointer is nulled before a burial or after it makes no difference. -/
theorem aim_none_bury (b : Block) (id : BlockId) : (b.aim none).bury id = (b.bury id).aim none := by
  unfold bury
  rw [aim_id, forget_aim_none]
  split
  · rw [aim_die, aim_none_forget]
  · rw [aim_none_forget]

end Block

namespace Memory

variable {m next : Memory}

theorem update_congr (blocks : next.blocks = m.blocks) (id : BlockId) (f : Block → Block) :
    (next.update id f).blocks = (m.update id f).blocks := by
  rw [update_blocks, blocks, update_blocks]

/-- Two changes may trade places unless they meet in one block and differ there. -/
theorem update_comm {a b : BlockId} {f g : Block → Block} (left : ∀ c, (f c).id = c.id)
    (right : ∀ c, (g c).id = c.id)
    (commute : ∀ c : Block, c.id = a → c.id = b → g (f c) = f (g c)) :
    ((m.update a f).update b g).blocks = ((m.update b g).update a f).blocks := by
  simp only [update_blocks, List.map_map]
  refine List.map_congr_left fun c _ => ?_
  have met := commute c
  have left_id := left c
  have right_id := right c
  by_cases first : c.id = a <;> by_cases second : c.id = b <;> grind

/-- The owner count of a live shared block. -/
def liveOwners? (m : Memory) (id : BlockId) : Option Nat :=
  (m.block? id).bind fun b => if b.live then b.owners? else none

/-- A release frees a block with one owner and takes one from a block with more. -/
theorem release_blocks (m : Memory) (id : BlockId) : (m.release id).blocks =
    match m.liveOwners? id with
    | some 1 => m.blocks.map (Block.bury id)
    | some (owners + 2) => (m.update id (Block.countOwners fun _ => owners + 1)).blocks
    | _ => m.blocks := by
  cases m.released id with
  | kept same uncounted =>
    rw [same]
    have none_left (owners : Nat) : m.liveOwners? id ≠ some (owners + 1) := by
      intro left
      obtain ⟨b, found, counts⟩ := Option.bind_eq_some_iff.mp left
      obtain ⟨live, counts⟩ := Option.ite_none_right_eq_some.mp counts
      exact uncounted b found live owners counts
    split
    · rename_i left
      exact absurd left (none_left 0)
    · rename_i owners left
      exact absurd left (none_left (owners + 1))
    · rfl
  | counted found live before after => simp [liveOwners?, found, live, before, after]
  | freed found live before after => simp [liveOwners?, found, live, before, after]

theorem liveOwners?_aim (pointer : BlockId) (target : Option BlockId) (id : BlockId) :
    (m.update pointer (·.aim target)).liveOwners? id = m.liveOwners? id := by
  have found : (m.update pointer (·.aim target)).block? id =
      (m.block? id).map fun b => if b.id = pointer then b.aim target else b :=
    block?_map m id fun b => by split <;> simp
  rw [liveOwners?, found, liveOwners?]
  cases m.block? id with
  | none => rfl
  | some b => by_cases this : b.id = pointer <;> simp [this]

/-- It makes no difference to a release whether a pointer is nulled before or after it. -/
theorem release_aim_none (m : Memory) (pointer id : BlockId) :
    ((m.update pointer (·.aim none)).release id).blocks =
      ((m.release id).update pointer (·.aim none)).blocks := by
  have nulled := release_blocks (m.update pointer (·.aim none)) id
  rw [liveOwners?_aim] at nulled
  rw [nulled, update_blocks (m.release id), release_blocks]
  split
  · simp only [update_blocks, List.map_map]
    refine List.map_congr_left fun b _ => ?_
    by_cases this : b.id = pointer <;> simp [this, Block.aim_none_bury]
  · exact update_comm (by simp) (by simp) fun b _ _ => Block.aim_countOwners b none _
  · rfl

/-- A release gives no pointer a new target. -/
theorem target?_of_release {id other : BlockId} {b : Block} (member : b ∈ (m.release id).blocks)
    (aimed : b.target? = some other) : ∃ c ∈ m.blocks, c.id = b.id ∧ c.target? = some other := by
  cases m.released id with
  | kept same _ => exact ⟨b, same ▸ member, rfl, aimed⟩
  | counted _ _ _ after =>
    rw [after, update_blocks] at member
    obtain ⟨c, there, rfl⟩ := List.mem_map.mp member
    by_cases this : c.id = id
    · rw [if_pos this] at aimed ⊢
      rw [Block.target?_congr (Block.countOwners_content _ c)] at aimed
      exact ⟨c, there, (Block.countOwners_id _ c).symm, aimed⟩
    · rw [if_neg this] at aimed ⊢
      exact ⟨c, there, rfl, aimed⟩
  | freed _ _ _ after =>
    rw [after] at member
    obtain ⟨c, there, rfl⟩ := List.mem_map.mp member
    exact ⟨c, there, (Block.bury_id id c).symm, (Block.target?_bury.mp aimed).1⟩

theorem target?_of_leaveTarget {p : Pointer} {other : BlockId} {b : Block}
    (member : b ∈ (m.leaveTarget p).blocks) (aimed : b.target? = some other) :
    ∃ c ∈ m.blocks, c.id = b.id ∧ c.target? = some other := by
  unfold leaveTarget at member
  split at member
  · exact target?_of_release member aimed
  · exact ⟨b, member, rfl, aimed⟩

/-- What nothing points to stays so when a target is left. -/
theorem Untargeted.leaveTarget {id : BlockId} (untargeted : m.Untargeted id) (p : Pointer) :
    (m.leaveTarget p).Untargeted id := by
  intro b member aimed
  obtain ⟨c, there, _, aimed⟩ := target?_of_leaveTarget member aimed
  exact untargeted c there aimed

/-- What nothing points to stays so when a pointer becomes null. -/
theorem Untargeted.null {id : BlockId} (untargeted : m.Untargeted id) (pointer : BlockId) :
    (m.update pointer (·.aim none)).Untargeted id := by
  intro b member aimed
  obtain ⟨c, there, rfl⟩ := List.mem_map.mp member
  split at aimed
  · have null := Block.target?_aim aimed
    contradiction
  · exact untargeted c there aimed

/-- A pointer of discipline `d` becomes an owner of its new target, where that has an owner
already. -/
def enterTarget (m : Memory) (d : Discipline) : Option BlockId → Memory
  | none => m
  | some id => if d = .shared ∧ m.blocks.any (·.sharesOwnershipOf id) then m.retain id else m

/-- A pointer may be nulled before it leaves its target or after. -/
theorem leaveTarget_aim_none (m : Memory) (pointer : BlockId) (p : Pointer) :
    ((m.update pointer (·.aim none)).leaveTarget p).blocks =
      ((m.leaveTarget p).update pointer (·.aim none)).blocks := by
  unfold leaveTarget
  split
  · exact release_aim_none m pointer _
  · rfl

/-- Aiming a pointer elsewhere comes to four moves: it becomes null, its old target loses an owner, the new target
gains one, and the pointer is aimed there. The pointer itself shares the new target neither before it is nulled nor
after. -/
theorem reaim_blocks (sound : m.Sound) {pointer : BlockId} {b : Block} {p : Pointer}
    (held : m.LivePointer pointer b p) {target : Option BlockId} (moved : p.target ≠ target) :
    (m.reaim b p target).blocks =
      ((((m.update pointer (·.aim none)).leaveTarget p).enterTarget p.discipline target).update pointer
        (·.aim target)).blocks := by
  obtain ⟨member, rfl⟩ := block?_some held.found
  have order := leaveTarget_aim_none m b.id p
  have twice (target : Option BlockId) :
      (((m.leaveTarget p).update b.id (·.aim none)).update b.id (·.aim target)).blocks =
        ((m.leaveTarget p).update b.id (·.aim target)).blocks := by
    simp only [update_blocks, List.map_map]
    refine List.map_congr_left fun c _ => ?_
    by_cases this : c.id = b.id <;> simp [this]
  cases target with
  | none =>
    rw [enterTarget, update_congr order, twice]
    rfl
  | some id =>
    have others : ((m.update b.id (·.aim none)).leaveTarget p).blocks.any (·.sharesOwnershipOf id) =
        (m.leaveTarget p).blocks.any (·.sharesOwnershipOf id) := by
      have same (c : Block) (there : c ∈ (m.leaveTarget p).blocks) :
          (if c.id = b.id then c.aim none else c).sharesOwnershipOf id = c.sharesOwnershipOf id := by
        by_cases this : c.id = b.id
        · have unaimed : c.holds .shared id = false := by
            refine Bool.eq_false_iff.mpr fun shares => ?_
            obtain ⟨old, was, same, aimed⟩ :=
              target?_of_leaveTarget there (Block.target?_of_holds shares)
            obtain rfl := sound.eq_of_id was member (same.trans this)
            exact moved (Block.target?_of_pointer? held.holds ▸ aimed)
          rw [if_pos this, Block.sharesOwnershipOf_eq, Block.holds_aim_none,
            Block.sharesOwnershipOf_eq, unaimed]
        · rw [if_neg this]
      rw [order, update_blocks, List.any_map, Bool.eq_iff_iff, List.any_eq_true, List.any_eq_true]
      refine exists_congr fun c => and_congr_right fun there => ?_
      rw [Function.comp_apply, same c there]
    unfold reaim enterTarget
    dsimp only
    rw [others]
    split
    · have swap (m : Memory) : ((m.retain id).update b.id (·.aim (some id))).blocks =
          ((m.update b.id (·.aim (some id))).retain id).blocks :=
        update_comm (by simp) (by simp) fun c _ _ => (Block.aim_countOwners c _ _).symm
      have aimed := (update_congr order b.id (·.aim (some id))).trans (twice (some id))
      rw [record_blocks, swap]
      exact (update_congr aimed ..).symm
    · rw [update_congr order, twice]
      rfl

/-- Only shared pointers count. -/
theorem reaim_blocks_of_not_shared {b : Block} {p : Pointer} (owner : p.discipline ≠ .shared)
    (target : Option BlockId) :
    (m.reaim b p target).blocks = (m.update b.id (·.aim target)).blocks := by
  have left : m.leaveTarget p = m := by
    unfold leaveTarget
    split
    · contradiction
    · rfl
  unfold reaim
  rw [left]
  cases target with
  | none => rfl
  | some id => simp [owner]

@[simp] theorem enterTarget_nextId (d : Discipline) (target : Option BlockId) :
    (m.enterTarget d target).nextId = m.nextId := by
  unfold enterTarget
  split
  · rfl
  · split <;> rfl

namespace LivePointer

variable {pointer : BlockId} {b : Block} {p : Pointer} (held : m.LivePointer pointer b p)

include held

/-- A live pointer is still one when blocks are changed in place and it lives and holds a pointer. -/
theorem map {f : Block → Block} {q : Pointer} (blocks : next.blocks = m.blocks.map f)
    (ids : ∀ c, (f c).id = c.id) (live : (f b).live) (holds : (f b).pointer? = some q) :
    next.LivePointer pointer (f b) q where
  found := by
    have mapped := block?_map m pointer ids
    rw [held.found] at mapped
    rw [block?, blocks]
    exact mapped
  live := live
  holds := holds

theorem aim (target : Option BlockId) :
    (m.update pointer (·.aim target)).LivePointer pointer (b.aim target) { p with target } := by
  have same := (block?_some held.found).2
  have aimed :=
    held.map (update_blocks m pointer (·.aim target)) (q := { p with target }) (fun c => ?_) ?_ ?_
  · rwa [if_pos same] at aimed
  · split <;> simp
  · simp [same, held.live]
  · simp [same, held.holds]

/-- Other pointers stay as they are. -/
theorem aimOther {other : BlockId} (different : pointer ≠ other) (target : Option BlockId) :
    (m.update other (·.aim target)).LivePointer pointer b p := by
  have apart : b.id ≠ other := fun same => different ((block?_some held.found).2.symm.trans same)
  have aimed := held.map (update_blocks m other (·.aim target)) (q := p) (fun c => ?_) ?_ ?_
  · rwa [if_neg apart] at aimed
  · split <;> simp
  · rw [if_neg apart, held.live]
  · rw [if_neg apart, held.holds]

theorem countOwners {id : BlockId} {f : Nat → Nat}
    (blocks : next.blocks = (m.update id (Block.countOwners f)).blocks) :
    ∃ c, next.LivePointer pointer c p := by
  refine ⟨_, held.map blocks (fun c => ?_) ?_ ?_⟩
  · split <;> simp
  · split <;> simp [held.live]
  · split <;> simpa [Block.pointer?] using held.holds

/-- A live pointer outlives the burial of another block, and forgets that. -/
theorem bury {gone : BlockId} (blocks : next.blocks = m.blocks.map (Block.bury gone))
    (other : pointer ≠ gone) : next.LivePointer pointer (b.bury gone) (p.without gone) := by
  refine held.map blocks (Block.bury_id gone) ?_ ?_
  · simp [held.live, (block?_some held.found).2, other]
  · simp [held.holds]

/-- A null pointer is left as it is. -/
theorem release (sound : m.Sound) (null : p.target = none) (id : BlockId) :
    ∃ c, (m.release id).LivePointer pointer c p := by
  cases m.released id with
  | kept same _ => exact ⟨b, by rwa [same]⟩
  | counted _ _ _ after => exact held.countOwners after
  | @freed c found live before after =>
    obtain ⟨member, rfl⟩ := block?_some found
    have plain := sound.plain_of_owners? member (Option.isSome_of_eq_some before)
    have other : b.id ≠ c.id := by
      intro same
      obtain rfl := sound.eq_of_id (block?_some held.found).1 member same
      simp [held.holds] at plain
    have buried := held.bury after ((block?_some held.found).2 ▸ other)
    rw [Pointer.without_of_ne (null ▸ nofun)] at buried
    exact ⟨_, buried⟩

theorem leaveTarget (sound : m.Sound) (null : p.target = none) (left : Pointer) :
    ∃ c, (m.leaveTarget left).LivePointer pointer c p := by
  unfold Memory.leaveTarget
  split
  · exact held.release sound null _
  · exact ⟨b, held⟩

theorem enterTarget (d : Discipline) (target : Option BlockId) :
    ∃ c, (m.enterTarget d target).LivePointer pointer c p := by
  unfold Memory.enterTarget
  split
  · exact ⟨b, held⟩
  · split
    · exact held.countOwners rfl
    · exact ⟨b, held⟩

end LivePointer

theorem HasLive.enterTarget {id : BlockId} (alive : m.HasLive id) (d : Discipline)
    (target : Option BlockId) : (m.enterTarget d target).HasLive id := by
  unfold Memory.enterTarget
  split
  · exact alive
  · split
    · exact alive.countOwners rfl
    · exact alive

/-- The copy of a shared pointer lies behind the blocks whose target already counts it. -/
theorem pushCopy_blocks (m : Memory) (b : Block) {p : Pointer} {id : BlockId}
    (aimed : p.target = some id) (name : String) :
    ∃ c, (m.pushCopy b p name).blocks = (m.retain id).blocks ++ [c] ∧ c.id = m.nextId ∧ c.live ∧
      c.isStack ∧ c.pointer? = some p := by
  refine ⟨{ id := m.nextId, name, size := pointerSize, address := stackStart + m.stackDepth * slotStride
            storage := .stack m.stackDepth, content := .pointer p }, ?_, rfl, rfl, rfl, rfl⟩
  unfold pushCopy
  rw [aimed]
  dsimp only
  rw [record_blocks, retain, update_blocks, pushStack, List.map_append]
  refine congrArg _ (congrArg (· :: []) ?_)
  dsimp only
  split <;> rfl

end Memory

end MemoryTrace
