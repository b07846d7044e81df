import MemoryTrace.Proofs.Memory.Registry

namespace MemoryTrace

/-- `c` is `b` at another time of its life. -/
def Block.Ages (b c : Block) : Prop := c = { b with lifetime := c.lifetime }

namespace Block.Ages

variable {b c : Block}

theorem refl (b : Block) : b.Ages b := rfl

/-- Time does not change the number of a block. -/
theorem id (ages : b.Ages c) : c.id = b.id := by rw [ages]

theorem live (ages : b.Ages c) : c.live = b.live := by rw [ages]

theorem storage (ages : b.Ages c) : c.storage = b.storage := by rw [ages]

/-- Time does not change what a block points to. -/
theorem pointer? (ages : b.Ages c) : c.pointer? = b.pointer? := by rw [ages]; rfl

theorem age (ages : b.Ages c) : b.Ages c.age := by
  rw [ages]
  unfold Block.age
  split <;> rfl

end Block.Ages

namespace Block

variable {b : Block}

/-- What is no pointer cannot be aimed. -/
theorem aim_of_plain (plain : b.pointer? = none) (target : Option BlockId) : b.aim target = b := by
  obtain ⟨_, _, _, _, _, content, _, _⟩ := b
  cases content with
  | pointer p => simp [pointer?] at plain
  | value | object => rfl

/-- A block that is no pointer does not mind that another is freed. -/
theorem bury_of_plain (plain : b.pointer? = none) {id : BlockId} (other : b.id ≠ id) : b.bury id = b := by
  rw [bury, if_neg other, forget, if_neg]
  simp [target?, plain]

end Block

/-- The operation is not asked to free this block, or to aim at it. -/
def Operation.Spares (id : BlockId) : Operation → Prop
  | .deallocate other => other ≠ id
  | .assignPointer _ target => target ≠ some id
  | .reset => False
  | _ => True

namespace Memory

/-- The block `b` is still there, and no pointer points to it that is live or has come since. Numbers from `base` on
have come since. -/
structure Lost (base : BlockId) (b : Block) (m : Memory) : Prop where
  old : b.id < base
  bound : base ≤ m.nextId
  plain : b.pointer? = none
  heap : b.isStack = false
  live : b.live
  there : ∃ c ∈ m.blocks, b.Ages c
  unreached : ∀ c ∈ m.blocks, c.live ∨ base ≤ c.id → c.target? ≠ some b.id

namespace Lost

variable {base : BlockId} {b : Block} {m next : Memory} (lost : m.Lost base b)

include lost

/-- A block stays lost through changes in place that do not touch it and aim nothing at it. -/
theorem map {f : Block → Block} (blocks : next.blocks = m.blocks.map f) (nextId : next.nextId = m.nextId)
    (ages : ∀ c, b.Ages c → b.Ages (f c)) (ids : ∀ c, (f c).id = c.id) (lives : ∀ c, (f c).live → c.live)
    (targets : ∀ c, (f c).target? = some b.id → c.target? = some b.id) : next.Lost base b where
  old := lost.old
  bound := nextId ▸ lost.bound
  plain := lost.plain
  heap := lost.heap
  live := lost.live
  there := by
    obtain ⟨c, member, same⟩ := lost.there
    exact ⟨f c, blocks ▸ List.mem_map_of_mem member, ages c same⟩
  unreached := by
    intro c member known aimed
    rw [blocks] at member
    obtain ⟨before, there, rfl⟩ := List.mem_map.mp member
    refine lost.unreached before there ?_ (targets before aimed)
    rw [ids] at known
    exact known.imp_left (lives before)

theorem congr (blocks : next.blocks = m.blocks) (nextId : next.nextId = m.nextId) : next.Lost base b :=
  lost.map (f := fun c => c) (by rw [blocks, List.map_id']) nextId (fun _ same => same) (fun _ => rfl)
    (fun _ live => live) fun _ aimed => aimed

/-- A new block does not find a lost one, unless it is made to point to it. -/
theorem push {c : Block} (blocks : next.blocks = m.blocks ++ [c]) (nextId : next.nextId = m.nextId + 1)
    (target : c.target? ≠ some b.id) : next.Lost base b where
  old := lost.old
  bound := nextId ▸ Nat.le_succ_of_le lost.bound
  plain := lost.plain
  heap := lost.heap
  live := lost.live
  there := by
    obtain ⟨c, member, same⟩ := lost.there
    exact ⟨c, blocks ▸ List.mem_append_left _ member, same⟩
  unreached := by
    intro d member known
    rw [blocks] at member
    rcases List.mem_append.mp member with before | new
    · exact lost.unreached d before known
    · rwa [List.mem_singleton.mp new]

theorem bury {id : BlockId} (other : id ≠ b.id) (blocks : next.blocks = m.blocks.map (Block.bury id))
    (nextId : next.nextId = m.nextId) : next.Lost base b := by
  refine lost.map blocks nextId (fun c ages => ?_) (by simp) (fun c => (c.becomes_bury id).live) fun c aimed =>
    (Block.target?_bury.mp aimed).1
  rwa [Block.bury_of_plain (ages.pointer?.trans lost.plain) (ages.id ▸ other.symm)]

theorem free {c : Block} (other : c.id ≠ b.id) (reason : String) : (m.free c reason).Lost base b :=
  lost.bury other (free_blocks m c reason) rfl

theorem countOwners {id : BlockId} {f : Nat → Nat} (other : id ≠ b.id)
    (blocks : next.blocks = (m.update id (Block.countOwners f)).blocks) (nextId : next.nextId = m.nextId) :
    next.Lost base b := by
  refine lost.map blocks nextId (fun c ages => ?_) (fun c => ?_) (fun c live => ?_) fun c aimed => ?_
  · rwa [if_neg (ages.id ▸ other.symm)]
  · split <;> simp
  · split at live <;> simpa using live
  · split at aimed
    · rwa [Block.target?_congr (c.countOwners_content f)] at aimed
    · exact aimed

theorem aim (pointer : BlockId) {target : Option BlockId} (other : target ≠ some b.id) :
    (m.update pointer (·.aim target)).Lost base b := by
  refine lost.map (update_blocks ..) rfl (fun c ages => ?_) (fun c => ?_) (fun c live => ?_) fun c aimed => ?_
  · split
    · rwa [Block.aim_of_plain (ages.pointer?.trans lost.plain)]
    · exact ages
  · split <;> simp
  · split at live <;> simpa using live
  · split at aimed
    · exact absurd (Block.target?_aim aimed) other
    · exact aimed

theorem release {id : BlockId} (other : id ≠ b.id) : (m.release id).Lost base b := by
  cases m.released id with
  | kept same _ => rwa [same]
  | counted _ _ _ after => exact lost.countOwners other after (m.release_nextId id)
  | freed _ _ _ after => exact lost.bury other after (m.release_nextId id)

theorem deallocate {id : BlockId} (other : id ≠ b.id) (done : m.deallocate id = .ok next) : next.Lost base b := by
  obtain ⟨c, found, _, rfl⟩ := deallocate_eq_ok.mp done
  split
  · exact lost.release other
  · exact lost.free ((block?_some found).2 ▸ other) _

theorem deallocateIfAny {target : Option BlockId} (other : target ≠ some b.id)
    (done : m.deallocateIfAny target = .ok next) : next.Lost base b := by
  cases target with
  | none => exact Except.ok.inj done ▸ lost
  | some id => exact lost.deallocate (fun same => other (congrArg some same)) done

theorem leaveTarget {p : Pointer} (other : p.target ≠ some b.id) : (m.leaveTarget p).Lost base b := by
  unfold Memory.leaveTarget
  split
  · rename_i old _ same
    exact lost.release fun equal => other (equal ▸ same)
  · exact lost

/-- A live pointer points elsewhere. -/
theorem target_ne {id : BlockId} {c : Block} {p : Pointer} (pointer : m.LivePointer id c p) : p.target ≠ some b.id := by
  rw [← Block.target?_of_pointer? pointer.holds]
  exact lost.unreached c (block?_some pointer.found).1 (.inl pointer.live)

/-- An assignment finds no lost block, unless it is told its number. -/
theorem assignPointer {pointer : BlockId} {target : Option BlockId} (other : target ≠ some b.id)
    (done : m.assignPointer pointer target = .ok next) : next.Lost base b := by
  obtain ⟨c, p, held, _, rfl⟩ := assignPointer_eq_ok.mp done
  have aimed := (lost.leaveTarget (lost.target_ne held)).aim c.id other
  split
  · exact lost
  · unfold reaim
    dsimp only
    split
    · exact aimed.congr rfl rfl
    · rename_i id
      split
      · exact aimed.countOwners (fun same => other (congrArg some same)) rfl rfl
      · exact aimed.congr rfl rfl

/-- The copy of a live pointer points where that does, so not to a lost block. -/
theorem pushCopy {source : BlockId} {c : Block} {p : Pointer} (held : m.LivePointer source c p) (name : String) :
    (m.pushCopy c p name).Lost base b := by
  have other := lost.target_ne held
  have pushed : (m.pushStack name pointerSize (.pointer p)).Lost base b := lost.push rfl rfl other
  unfold Memory.pushCopy
  dsimp only
  split
  · exact pushed.congr rfl rfl
  · rename_i old same
    exact pushed.countOwners (fun equal => other (equal ▸ same)) rfl rfl

/-- A move hands over and frees what live pointers point to, so no lost block. -/
theorem moveUnique {source dest : BlockId} (done : m.moveUnique source dest = .ok next) : next.Lost base b := by
  obtain ⟨_, giver, p, taker, q, freed, given, _, taken, _, released, rfl⟩ := moveUnique_eq_ok.mp done
  have left := lost.deallocateIfAny (fun same => lost.target_ne taken (Option.filter_eq_some_iff.mp same).1) released
  exact ((left.aim dest (lost.target_ne given)).aim source (Option.some_ne_none _).symm).congr rfl rfl

/-- A lost block is none of those on the stack. -/
theorem ne_of_isStack (sound : m.Sound) {c : Block} (member : c ∈ m.blocks) (stack : c.isStack) : c.id ≠ b.id := by
  intro same
  obtain ⟨d, there, ages⟩ := lost.there
  obtain rfl := sound.eq_of_id there member (ages.id.trans same.symm)
  rw [Block.isStack_congr ages.storage, lost.heap] at stack
  contradiction

/-- What leaves a scope frees only itself and what it pointed to. -/
theorem leaveScope (sound : m.Sound) {c : Block} (member : c ∈ m.blocks) (alive : c.live) (stack : c.isStack) :
    (m.leaveScope c).memory.Lost base b := by
  have other := lost.unreached c member (.inl alive)
  have popped := lost.free (lost.ne_of_isStack sound member stack) "goes out of scope"
  unfold Memory.leaveScope
  dsimp only
  split
  · rename_i id _ holds
    have elsewhere : id ≠ b.id := fun same => other (by rw [Block.target?_of_pointer? holds, same])
    split
    · rename_i freed done
      exact (popped.deallocate elsewhere done).aim c.id (Option.some_ne_none _).symm
    · exact popped.aim c.id (Option.some_ne_none _).symm
  · rename_i id _ holds
    have elsewhere : id ≠ b.id := fun same => other (by rw [Block.target?_of_pointer? holds, same])
    exact (popped.release elsewhere).aim c.id (Option.some_ne_none _).symm
  · exact popped

/-- Whatever is lost stays lost. No operation reaches it, unless somebody still knows its number. -/
theorem perform (sound : m.Sound) {operation : Operation} (spares : operation.Spares b.id) :
    (m.perform operation).2.Lost base b := by
  cases operation with
  | createVariable | createPointer | createObject | allocate | allocateObject =>
    exact lost.push rfl rfl (by simp [Block.target?, Block.pointer?])
  | deallocate id => exact settle_keeps (Lost base b) lost fun _ => lost.deallocate spares
  | assignPointer pointer target => exact settle_keeps (Lost base b) lost fun _ => lost.assignPointer spares
  | copyShared source name =>
    exact perform_copyShared_keeps (Lost base b) lost fun _ _ held _ => lost.pushCopy held name
  | moveUnique source dest => exact settle_keeps (Lost base b) lost fun _ => lost.moveUnique
  | endScope => exact perform_endScope_keeps (Lost base b) lost fun _ => lost.leaveScope sound
  | reportLeaks =>
    exact lost.congr (reportLeaks_keeps blocks (fun _ _ _ _ => rfl) m) (reportLeaks_keeps nextId (fun _ _ _ _ => rfl) m)
  | tick =>
    refine lost.map (f := Block.age) rfl rfl (fun _ ages => ages.age) (by simp) (by simp) fun c aimed => ?_
    rwa [Block.target?_congr c.age_content] at aimed
  | reset => contradiction

theorem isReferenced_eq_false : m.isReferenced b.id = false := by
  simp only [isReferenced, List.any_eq_false, Bool.and_eq_true, decide_eq_true_eq, not_and]
  exact fun c member alive => lost.unreached c member (.inl alive)

end Lost

/-- What no live pointer points to is lost from now on. -/
theorem Sound.lost {b : Block} {m : Memory} (sound : m.Sound) (member : b ∈ m.blocks) (live : b.live)
    (heap : b.isStack = false) (unreached : m.isReferenced b.id = false) : m.Lost m.nextId b where
  old := sound.id_lt_next member
  bound := Nat.le_refl _
  plain := sound.plain_of_heap member heap
  heap := heap
  live := live
  there := ⟨b, member, .refl b⟩
  unreached := by
    simp only [isReferenced, List.any_eq_false, Bool.and_eq_true, decide_eq_true_eq, not_and] at unreached
    intro c there known
    exact unreached c there (known.resolve_right (Nat.not_le_of_gt (sound.id_lt_next there)))

end Memory

end MemoryTrace
