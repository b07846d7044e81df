import Mathlib.Data.List.Nodup
import MemoryTrace.Proofs.Memory.Blocks

namespace MemoryTrace

/-- `c` is `b` after some changes in place. It is for the pointers it was for, as a pointer it keeps
its discipline, and it has not come back to life. -/
structure Block.Becomes (b c : Block) : Prop where
  id : c.id = b.id
  name : c.name = b.name
  isStack : c.isStack = b.isStack
  managedBy : c.managedBy = b.managedBy
  discipline : c.pointer?.map (·.discipline) = b.pointer?.map (·.discipline)
  live : c.live → b.live

namespace Block

theorem Becomes.refl (b : Block) : b.Becomes b := ⟨rfl, rfl, rfl, rfl, rfl, fun live => live⟩

theorem Becomes.trans {b c d : Block} (first : b.Becomes c) (second : c.Becomes d) :
    b.Becomes d where
  id := second.id.trans first.id
  name := second.name.trans first.name
  isStack := second.isStack.trans first.isStack
  managedBy := second.managedBy.trans first.managedBy
  discipline := second.discipline.trans first.discipline
  live := first.live ∘ second.live

/-- A block that is buried, or that forgets the buried one, is still the same block. -/
theorem becomes_bury (b : Block) (id : BlockId) : b.Becomes (b.bury id) where
  id := by simp
  name := by simp
  isStack := by simp
  managedBy := by simp
  discipline := by simp [Function.comp_def, Pointer.without]
  live := by simp_all

theorem becomes_aim (b : Block) (target : Option BlockId) : b.Becomes (b.aim target) where
  id := by simp
  name := by simp
  isStack := by simp
  managedBy := by simp
  discipline := by simp [Function.comp_def]
  live := by simp

theorem becomes_countOwners (b : Block) (f : Nat → Nat) : b.Becomes (b.countOwners f) where
  id := by simp
  name := by simp
  isStack := by simp
  managedBy := by simp
  discipline := by simp [pointer?]
  live := by simp

theorem becomes_age (b : Block) : b.Becomes b.age where
  id := by simp
  name := by simp
  isStack := isStack_congr (age_storage b)
  managedBy := managedBy_congr (age_storage b)
  discipline := by simp [pointer?]
  live := by simp

end Block

namespace Memory

/-- Some live block has this number. -/
def HasLive (m : Memory) (id : BlockId) : Prop := ∃ b ∈ m.blocks, b.id = id ∧ b.live

/-- A block that is found live is on record live. -/
theorem hasLive_of_block? {m : Memory} {id : BlockId} {b : Block} (found : m.block? id = some b)
    (live : b.live) : m.HasLive id :=
  ⟨b, (block?_some found).1, (block?_some found).2, live⟩

/-- A block stays live when blocks are changed in place and it is not ended. -/
theorem HasLive.map {m next : Memory} {id : BlockId} {f : Block → Block} (alive : m.HasLive id)
    (blocks : next.blocks = m.blocks.map f) (ids : ∀ b, (f b).id = b.id)
    (kept : ∀ b, b.id = id → b.live → (f b).live) : next.HasLive id := by
  obtain ⟨b, member, same, live⟩ := alive
  exact ⟨f b, blocks ▸ List.mem_map_of_mem member, (ids b).trans same, kept b same live⟩

theorem HasLive.bury {m next : Memory} {id other : BlockId} (alive : m.HasLive id)
    (blocks : next.blocks = m.blocks.map (Block.bury other)) (different : id ≠ other) :
    next.HasLive id :=
  alive.map blocks (by simp) fun b same live => by simp [live, same, different]

theorem HasLive.countOwners {m next : Memory} {id other : BlockId} {f : Nat → Nat}
    (alive : m.HasLive id) (blocks : next.blocks = (m.update other (Block.countOwners f)).blocks) :
    next.HasLive id := by
  refine alive.map blocks (fun b => ?_) fun b _ live => ?_
  · split <;> simp
  · split <;> simp [live]

theorem HasLive.release {m : Memory} {id other : BlockId} (alive : m.HasLive id)
    (different : id ≠ other) : (m.release other).HasLive id := by
  cases m.released other with
  | kept same _ => rwa [same]
  | counted _ _ _ after => exact alive.countOwners after
  | freed _ _ _ after => exact alive.bury after different

theorem HasLive.leaveTarget {m : Memory} {id : BlockId} (alive : m.HasLive id) {p : Pointer}
    (different : p.target ≠ some id) : (m.leaveTarget p).HasLive id := by
  unfold Memory.leaveTarget
  split
  · rename_i old _ same
    exact alive.release fun equal => different (equal ▸ same)
  · exact alive

theorem HasLive.free {m : Memory} {id : BlockId} (alive : m.HasLive id) {b : Block}
    (different : id ≠ b.id) (reason : String) : (m.free b reason).HasLive id :=
  alive.bury (free_blocks m b reason) different

theorem HasLive.deallocateIfAny {m next : Memory} {id : BlockId} (alive : m.HasLive id)
    {target : Option BlockId} (done : m.deallocateIfAny target = .ok next)
    (different : target ≠ some id) : next.HasLive id := by
  cases target with
  | none => exact Except.ok.inj done ▸ alive
  | some other =>
    obtain ⟨b, found, _, rfl⟩ := deallocate_eq_ok.mp done
    have apart : id ≠ other := fun same => different (same ▸ rfl)
    split
    · exact alive.release apart
    · exact alive.free ((block?_some found).2 ▸ apart) _

theorem HasLive.aim {m : Memory} {id pointer : BlockId} (alive : m.HasLive id)
    (target : Option BlockId) : (m.update pointer (·.aim target)).HasLive id := by
  refine alive.map (update_blocks ..) (fun b => ?_) fun b _ live => ?_
  · split <;> simp
  · split <;> simp [live]

/-- `next` has the blocks of `m`, changed in place at most. -/
def Shrinks (m next : Memory) : Prop :=
  ∃ f : Block → Block, next.blocks = m.blocks.map f ∧ ∀ b : Block, b.Becomes (f b)

namespace Shrinks

variable {m next : Memory}

/-- A memory with the same blocks has lost nothing and gained nothing. -/
theorem of_blocks (same : next.blocks = m.blocks) : m.Shrinks next :=
  ⟨id, same.trans (List.map_id _).symm, Block.Becomes.refl⟩

theorem trans {middle : Memory} (first : m.Shrinks middle) (second : middle.Shrinks next) :
    m.Shrinks next := by
  obtain ⟨f, before, f_keeps⟩ := first
  obtain ⟨g, after, g_keeps⟩ := second
  exact ⟨g ∘ f, by rw [after, before, List.map_map], fun b => (f_keeps b).trans (g_keeps (f b))⟩

theorem congr {other : Memory} (shrinks : m.Shrinks next) (same : other.blocks = next.blocks) :
    m.Shrinks other :=
  shrinks.trans (of_blocks same)

theorem free (m : Memory) (b : Block) (reason : String) : m.Shrinks (m.free b reason) :=
  ⟨Block.bury b.id, free_blocks m b reason, fun c => c.becomes_bury b.id⟩

/-- Changing a block in place only takes away, if the block stays the same block. -/
theorem update (m : Memory) (id : BlockId) {f : Block → Block}
    (keeps : ∀ b : Block, b.Becomes (f b)) : m.Shrinks (m.update id f) := by
  refine ⟨_, update_blocks m id f, fun b => ?_⟩
  split
  · exact keeps b
  · exact .refl b

theorem aim (m : Memory) (pointer : BlockId) (target : Option BlockId) :
    m.Shrinks (m.update pointer (·.aim target)) :=
  update m pointer fun b => b.becomes_aim target

theorem countOwners (m : Memory) (id : BlockId) (f : Nat → Nat) :
    m.Shrinks (m.update id (Block.countOwners f)) :=
  update m id fun b => b.becomes_countOwners f

theorem release (m : Memory) (id : BlockId) : m.Shrinks (m.release id) := by
  cases m.released id with
  | kept same _ => exact of_blocks (congrArg blocks same)
  | counted _ _ _ after => exact (countOwners m id _).congr after
  | freed _ _ _ after => exact ⟨_, after, fun c => c.becomes_bury id⟩

theorem deallocate {id : BlockId} (done : m.deallocate id = .ok next) : m.Shrinks next := by
  obtain ⟨b, _, _, rfl⟩ := deallocate_eq_ok.mp done
  split
  · exact release m id
  · exact free m b _

theorem deallocateIfAny {target : Option BlockId} (done : m.deallocateIfAny target = .ok next) :
    m.Shrinks next := by
  cases target with
  | none => exact of_blocks (congrArg blocks (Except.ok.inj done).symm)
  | some id => exact deallocate done

theorem assignPointer {pointer : BlockId} {target : Option BlockId}
    (done : m.assignPointer pointer target = .ok next) : m.Shrinks next := by
  obtain ⟨b, p, _, _, rfl⟩ := assignPointer_eq_ok.mp done
  have left : m.Shrinks (m.leaveTarget p) := by
    unfold Memory.leaveTarget
    split
    · exact release ..
    · exact of_blocks rfl
  have aimed := left.trans (aim _ b.id target)
  split
  · exact of_blocks rfl
  · unfold reaim
    dsimp only
    split
    · exact aimed.congr rfl
    · split
      · exact (aimed.trans (countOwners ..)).congr rfl
      · exact aimed.congr rfl

theorem moveUnique {source dest : BlockId} (done : m.moveUnique source dest = .ok next) :
    m.Shrinks next := by
  obtain ⟨_, _, _, _, _, freed, _, _, _, _, released, rfl⟩ := moveUnique_eq_ok.mp done
  exact (((deallocateIfAny released).trans (aim ..)).trans (aim ..)).congr rfl

/-- Behind the freed block, leaving a scope only takes away. -/
theorem leaveScope (m : Memory) (b : Block) :
    (m.free b "goes out of scope").Shrinks (m.leaveScope b).memory := by
  unfold Memory.leaveScope
  dsimp only
  split
  · split
    · rename_i freed done
      exact (deallocate done).trans (aim ..)
    · exact aim ..
  · exact (release ..).trans (aim ..)
  · exact of_blocks rfl

end Shrinks

/-- What is live in the end was live before. -/
theorem HasLive.of_shrinks {m next : Memory} {id : BlockId} (shrinks : m.Shrinks next)
    (alive : next.HasLive id) : m.HasLive id := by
  obtain ⟨f, blocks, keeps⟩ := shrinks
  obtain ⟨b, member, same, live⟩ := alive
  rw [blocks] at member
  obtain ⟨c, there, rfl⟩ := List.mem_map.mp member
  exact ⟨c, there, (keeps c).id.symm.trans same, (keeps c).live live⟩

theorem not_hasLive_bury {m next : Memory} {id : BlockId} (blocks : next.blocks = m.blocks.map (Block.bury id)) :
    ¬ next.HasLive id := by
  rintro ⟨c, there, same, alive⟩
  rw [blocks] at there
  obtain ⟨t, _, rfl⟩ := List.mem_map.mp there
  rw [Block.bury_id] at same
  simp [same] at alive

theorem not_hasLive_free (m : Memory) (b : Block) (reason : String) : ¬ (m.free b reason).HasLive b.id :=
  not_hasLive_bury (free_blocks m b reason)

/-- What every operation keeps of the registry. -/
structure Sound (m : Memory) : Prop where
  numbered : m.blocks.map (·.id) = List.range' 1 m.blocks.length
  next : m.nextId = m.blocks.length + 1
  targetsLive : ∀ b ∈ m.blocks, ∀ id, b.target? = some id → m.HasLive id
  pointersOnStack : ∀ b ∈ m.blocks, b.pointer?.isSome → b.isStack

theorem sound_withCapacity (capacity : Nat) : (withCapacity capacity).Sound where
  numbered := rfl
  next := rfl
  targetsLive := fun _ member => nomatch member
  pointersOnStack := fun _ member => nomatch member

namespace Sound

variable {m next : Memory} (sound : m.Sound)

include sound

/-- No two blocks have one number. -/
theorem distinct : (m.blocks.map (·.id)).Nodup := sound.numbered ▸ List.nodup_range'

theorem eq_of_id {b c : Block} (left : b ∈ m.blocks) (right : c ∈ m.blocks) (same : b.id = c.id) :
    b = c :=
  List.inj_on_of_nodup_map sound.distinct left right same

/-- Every block on record is found by its number. -/
theorem block?_of_mem {b : Block} (member : b ∈ m.blocks) : m.block? b.id = some b := by
  cases found : m.block? b.id with
  | none => simpa using List.find?_eq_none.mp found b member
  | some c =>
    obtain ⟨other, same⟩ := block?_some found
    rw [sound.eq_of_id other member same]

theorem block?_eq_some {id : BlockId} {b : Block} :
    m.block? id = some b ↔ b ∈ m.blocks ∧ b.id = id :=
  ⟨block?_some, fun ⟨member, same⟩ => same ▸ sound.block?_of_mem member⟩

/-- The next number is above all that are on record. -/
theorem id_lt_next {b : Block} (member : b ∈ m.blocks) : b.id < m.nextId := by
  have counted : b.id ∈ List.range' 1 m.blocks.length := sound.numbered ▸ List.mem_map_of_mem member
  have bound := (List.mem_range'_1.mp counted).2
  rwa [Nat.add_comm, ← sound.next] at bound

/-- A number that was not given out finds no block. -/
theorem block?_of_new {id : BlockId} (new : m.nextId ≤ id) : m.block? id = none := by
  cases found : m.block? id with
  | none => rfl
  | some b =>
    obtain ⟨member, rfl⟩ := block?_some found
    exact absurd (sound.id_lt_next member) (Nat.not_lt.mpr new)

theorem target_lt_next {b : Block} {id : BlockId} (member : b ∈ m.blocks)
    (aimed : b.target? = some id) : id < m.nextId := by
  obtain ⟨t, target, rfl, _⟩ := sound.targetsLive b member id aimed
  exact sound.id_lt_next target

/-- Heap blocks hold no pointers. -/
theorem plain_of_heap {b : Block} (member : b ∈ m.blocks) (heap : b.isStack = false) :
    b.pointer? = none := by
  cases holds : b.pointer? with
  | none => rfl
  | some p =>
    have stack := sound.pointersOnStack b member (Option.isSome_of_eq_some holds)
    rw [heap] at stack
    contradiction

/-- What counts owners is no pointer. -/
theorem plain_of_owners? {b : Block} (member : b ∈ m.blocks) (counts : b.owners?.isSome) :
    b.pointer? = none := by
  refine sound.plain_of_heap member (Bool.eq_false_iff.mpr fun stack => ?_)
  rw [Block.owners?_of_isStack stack] at counts
  contradiction

theorem congr (blocks : next.blocks = m.blocks) (nextId : next.nextId = m.nextId) : next.Sound where
  numbered := blocks ▸ sound.numbered
  next := by rw [nextId, blocks, sound.next]
  targetsLive := by
    unfold HasLive
    exact blocks ▸ sound.targetsLive
  pointersOnStack := blocks ▸ sound.pointersOnStack

/-- Changing blocks in place keeps the registry sound if every target left is still live. -/
theorem map {f : Block → Block} (blocks : next.blocks = m.blocks.map f)
    (nextId : next.nextId = m.nextId) (ids : ∀ b, (f b).id = b.id)
    (stack : ∀ b, (f b).isStack = b.isStack)
    (pointers : ∀ b, (f b).pointer?.isSome = b.pointer?.isSome)
    (targets : ∀ b ∈ m.blocks, ∀ id, (f b).target? = some id → next.HasLive id) : next.Sound where
  numbered := by simpa [blocks, Function.comp_def, ids] using sound.numbered
  next := by simpa [blocks, nextId] using sound.next
  targetsLive := by
    intro b member id aimed
    rw [blocks] at member
    obtain ⟨old, old_member, rfl⟩ := List.mem_map.mp member
    exact targets old old_member id aimed
  pointersOnStack := by
    intro b member pointer
    rw [blocks] at member
    obtain ⟨old, old_member, rfl⟩ := List.mem_map.mp member
    rw [stack]
    exact sound.pointersOnStack old old_member (pointers old ▸ pointer)

/-- A new block that points to a live block or to none keeps the registry sound. -/
theorem push {b : Block} (blocks : next.blocks = m.blocks ++ [b])
    (nextId : next.nextId = m.nextId + 1) (id : b.id = m.nextId)
    (stack : b.pointer?.isSome → b.isStack) (target : ∀ id, b.target? = some id → m.HasLive id) :
    next.Sound where
  numbered := by
    simp [blocks, List.range'_concat, sound.numbered, id, sound.next, Nat.add_comm]
  next := by simp [blocks, nextId, sound.next]
  targetsLive := by
    intro c member other aimed
    rw [blocks] at member
    have kept : m.HasLive other := by
      rcases List.mem_append.mp member with old | new
      · exact sound.targetsLive c old other aimed
      · obtain rfl := List.mem_singleton.mp new
        exact target other aimed
    obtain ⟨t, old, same, live⟩ := kept
    exact ⟨t, blocks ▸ List.mem_append_left _ old, same, live⟩
  pointersOnStack := by
    intro c member pointer
    rw [blocks] at member
    rcases List.mem_append.mp member with old | new
    · exact sound.pointersOnStack c old pointer
    · obtain rfl := List.mem_singleton.mp new
      exact stack pointer

/-- A burial keeps the registry sound: every pointer to the dead block is null. -/
theorem bury {id : BlockId} (blocks : next.blocks = m.blocks.map (Block.bury id))
    (nextId : next.nextId = m.nextId) : next.Sound := by
  refine sound.map blocks nextId (by simp) (by simp) (by simp) fun b member other aimed => ?_
  obtain ⟨aimed, different⟩ := Block.target?_bury.mp aimed
  exact (sound.targetsLive b member other aimed).bury blocks different

theorem free (b : Block) (reason : String) : (m.free b reason).Sound :=
  sound.bury (free_blocks m b reason) rfl

theorem countOwners {id : BlockId} {f : Nat → Nat}
    (blocks : next.blocks = (m.update id (Block.countOwners f)).blocks)
    (nextId : next.nextId = m.nextId) : next.Sound := by
  have content (b : Block) : (if b.id = id then b.countOwners f else b).content = b.content := by
    split <;> simp
  refine sound.map blocks nextId ?_ ?_ ?_ fun b member other aimed => ?_
  · intro b; split <;> simp
  · intro b; split <;> simp
  · intro b; simp [Block.pointer?, content b]
  · rw [Block.target?_congr (content b)] at aimed
    refine (sound.targetsLive b member other aimed).map blocks (fun c => ?_) fun c _ live => ?_
    · split <;> simp
    · split <;> simp [live]

theorem release (id : BlockId) : (m.release id).Sound := by
  cases m.released id with
  | kept same _ => rwa [same]
  | counted _ _ _ after => exact sound.countOwners after (m.release_nextId id)
  | freed _ _ _ after => exact sound.bury after (m.release_nextId id)

theorem retain (id : BlockId) : (m.retain id).Sound := sound.countOwners rfl rfl

theorem aim (pointer : BlockId) {target : Option BlockId}
    (live : ∀ id, target = some id → m.HasLive id) : (m.update pointer (·.aim target)).Sound := by
  refine sound.map rfl rfl ?_ ?_ ?_ fun b member other aimed => ?_
  · intro b; split <;> simp
  · intro b; split <;> simp
  · intro b; split <;> simp
  · refine HasLive.aim ?_ target
    split at aimed
    · exact live other (Block.target?_aim aimed)
    · exact sound.targetsLive b member other aimed

/-- A new variable keeps the registry sound if it points to a live block or to none. -/
theorem pushStack {name : String} {size : Nat} (content : Content)
    (target : ∀ p, content = .pointer p → ∀ id, p.target = some id → m.HasLive id) :
    (m.pushStack name size content).Sound := by
  refine sound.push rfl rfl rfl (fun _ => rfl) fun id aimed => ?_
  cases content with
  | pointer p => exact target p rfl id aimed
  | value => simp [Block.target?, Block.pointer?] at aimed
  | object layout => simp [Block.target?, Block.pointer?] at aimed

/-- A new heap block keeps the registry sound. It holds no pointer. -/
theorem pushHeap {name : String} {size : Nat} {discipline : Discipline} (content : Content)
    (plain : ∀ p, content ≠ .pointer p) : (m.pushHeap name size discipline content).Sound := by
  cases content with
  | pointer p => exact absurd rfl (plain p)
  | value =>
    exact sound.push rfl rfl rfl (by simp [Block.pointer?]) (by simp [Block.target?, Block.pointer?])
  | object layout =>
    exact sound.push rfl rfl rfl (by simp [Block.pointer?]) (by simp [Block.target?, Block.pointer?])

theorem createVariable (name : String) (size : Nat) : (m.createVariable name size).2.Sound :=
  (sound.pushStack .value nofun).congr rfl rfl

theorem createPointer (name : String) (discipline : Discipline) (pointee : Option ClassLayout) :
    (m.createPointer name discipline pointee).2.Sound := by
  refine (sound.pushStack (.pointer { discipline, pointee }) fun p same id aimed => ?_).congr rfl rfl
  obtain rfl := Content.pointer.inj same
  contradiction

theorem createObject (name : String) (layout : ClassLayout) :
    (m.createObject name layout).2.Sound :=
  (sound.pushStack (.object layout) nofun).congr rfl rfl

theorem allocate (name : String) (size : Nat) (discipline : Discipline) :
    (m.allocate name size discipline).2.Sound :=
  (sound.pushHeap .value nofun).congr rfl rfl

theorem allocateObject (name : String) (layout : ClassLayout) (discipline : Discipline) :
    (m.allocateObject name layout discipline).2.Sound :=
  (sound.pushHeap (.object layout) nofun).congr rfl rfl

theorem deallocate {id : BlockId} (done : m.deallocate id = .ok next) : next.Sound := by
  obtain ⟨b, _, _, rfl⟩ := deallocate_eq_ok.mp done
  split
  · exact sound.release id
  · exact sound.free b _

theorem deallocateIfAny {target : Option BlockId} (done : m.deallocateIfAny target = .ok next) :
    next.Sound := by
  cases target with
  | none => exact Except.ok.inj done ▸ sound
  | some id => exact sound.deallocate done

theorem leaveTarget (p : Pointer) : (m.leaveTarget p).Sound := by
  unfold Memory.leaveTarget
  split
  · exact sound.release _
  · exact sound

/-- A pointer may leave its old target for a live one, because what it leaves is not what it goes to. -/
theorem reaim {b : Block} {p : Pointer} {target : Option BlockId} (moved : p.target ≠ target)
    (live : ∀ id, target = some id → m.HasLive id) : (m.reaim b p target).Sound := by
  have still : ∀ id, target = some id → (m.leaveTarget p).HasLive id :=
    fun id aimed => (live id aimed).leaveTarget (aimed ▸ moved)
  have aimed := (sound.leaveTarget p).aim b.id still
  unfold Memory.reaim
  dsimp only
  split
  · exact aimed.congr rfl rfl
  · split
    · exact (aimed.retain _).congr rfl rfl
    · exact aimed.congr rfl rfl

theorem assignPointer {pointer : BlockId} {target : Option BlockId}
    (done : m.assignPointer pointer target = .ok next) : next.Sound := by
  obtain ⟨b, p, _, live, rfl⟩ := assignPointer_eq_ok.mp done
  split
  · exact sound
  · rename_i moved
    refine sound.reaim moved fun id aimed => ?_
    obtain ⟨t, found, alive⟩ := live id aimed
    exact hasLive_of_block? found alive

theorem pushCopy {source : BlockId} {b : Block} {p : Pointer} (pointer : m.LivePointer source b p)
    (name : String) : (m.pushCopy b p name).Sound := by
  have pushed : (m.pushStack name pointerSize (.pointer p)).Sound := by
    refine sound.pushStack _ fun q same id aimed => ?_
    obtain rfl := Content.pointer.inj same
    exact sound.targetsLive b (block?_some pointer.found).1 id
      (by simp [Block.target?, pointer.holds, aimed])
  unfold Memory.pushCopy
  dsimp only
  split
  · exact pushed.congr rfl rfl
  · exact (pushed.retain _).congr rfl rfl

theorem moveUnique {source dest : BlockId} (done : m.moveUnique source dest = .ok next) :
    next.Sound := by
  obtain ⟨_, giver, p, taker, q, freed, given, _, _, _, released, rfl⟩ := moveUnique_eq_ok.mp done
  have moved : ∀ id, p.target = some id → freed.HasLive id := by
    intro id aimed
    have alive := sound.targetsLive giver (block?_some given.found).1 id
      (by simp [Block.target?, given.holds, aimed])
    refine alive.deallocateIfAny released fun same => ?_
    simp [Option.filter_eq_some_iff, aimed] at same
  have aimed := (sound.deallocateIfAny released).aim dest moved
  have cleared :=
    aimed.aim source (fun id none_aimed => absurd none_aimed (Option.some_ne_none id).symm)
  exact cleared.congr rfl rfl

theorem leaveScope (b : Block) : (m.leaveScope b).memory.Sound := by
  have popped := sound.free b "goes out of scope"
  unfold Memory.leaveScope
  dsimp only
  split
  · split
    · rename_i freed done
      exact (popped.deallocate done).aim _ nofun
    · exact popped.aim _ nofun
  · exact (popped.release _).aim _ nofun
  · exact popped

theorem reportLeaks : m.reportLeaks.Sound :=
  sound.congr (reportLeaks_keeps blocks (fun _ _ _ _ => rfl) m)
    (reportLeaks_keeps nextId (fun _ _ _ _ => rfl) m)

theorem tick : m.tick.Sound := by
  refine sound.map (f := Block.age) rfl rfl (by simp) (by simp [Block.isStack])
    (by simp [Block.pointer?])
    fun b member other aimed => ?_
  rw [Block.target?_congr (Block.age_content b)] at aimed
  exact (sound.targetsLive b member other aimed).map rfl (by simp) (by simp)

/-- Every operation keeps the registry sound: blocks are numbered in order, pointers lie on the stack, and none of
them, dead or live, points to a block that is not live. -/
theorem perform (operation : Operation) : (m.perform operation).2.Sound := by
  cases operation with
  | createVariable name size => exact sound.createVariable name size
  | createPointer name discipline pointee => exact sound.createPointer name discipline pointee
  | createObject name layout => exact sound.createObject name layout
  | allocate name size discipline => exact sound.allocate name size discipline
  | allocateObject name layout discipline => exact sound.allocateObject name layout discipline
  | deallocate id => exact settle_keeps Sound sound fun _ => sound.deallocate
  | assignPointer pointer target => exact settle_keeps Sound sound fun _ => sound.assignPointer
  | copyShared source name => exact perform_copyShared_keeps Sound sound fun b p held _ => sound.pushCopy held name
  | moveUnique source dest => exact settle_keeps Sound sound fun _ => sound.moveUnique
  | endScope => exact perform_endScope_keeps Sound sound fun b _ _ _ => sound.leaveScope b
  | reportLeaks => exact sound.reportLeaks
  | tick => exact sound.tick
  | reset => exact sound_withCapacity _

end Sound

/-- The memories a run of operations reaches from a fresh one, refused operations included.
`allowed` says which operations may be tried on which memory. -/
inductive Reach (allowed : Memory → Operation → Prop) : Memory → Prop
  | fresh (capacity : Nat) : Reach allowed (withCapacity capacity)
  | next {m : Memory} {operation : Operation} :
      Reach allowed m → allowed m operation → Reach allowed (m.perform operation).2

/-- Reached by any operations at all. -/
def Reachable : Memory → Prop := Reach fun _ _ => True

/-- What an operation makes of a reachable memory is reachable. -/
theorem Reachable.perform {m : Memory} (reach : m.Reachable) (operation : Operation) :
    (m.perform operation).2.Reachable :=
  Reach.next reach trivial

/-- A run of operations one after the other. What is refused changes nothing. -/
def run (m : Memory) (operations : List Operation) : Memory :=
  operations.foldl (fun m operation => (m.perform operation).2) m

theorem run_cons (m : Memory) (first : Operation) (rest : List Operation) :
    m.run (first :: rest) = (m.perform first).2.run rest := rfl

theorem Reachable.run {m : Memory} (reach : m.Reachable) (operations : List Operation) :
    (m.run operations).Reachable := by
  induction operations generalizing m with
  | nil => exact reach
  | cons first rest ih => exact ih (reach.perform first)

/-- Whatever operations are allowed, the registry is sound in every memory that is reached. -/
theorem Reach.sound {allowed : Memory → Operation → Prop} {m : Memory} (reach : Reach allowed m) :
    m.Sound := by
  induction reach with
  | fresh capacity => exact sound_withCapacity capacity
  | next _ _ ih => exact ih.perform _

end Memory

end MemoryTrace
