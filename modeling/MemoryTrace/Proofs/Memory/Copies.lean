import MemoryTrace.Proofs.Memory.InPlace
import MemoryTrace.Proofs.Memory.Matched
import MemoryTrace.Proofs.Memory.Unwinding

namespace MemoryTrace

namespace Block

/-- Changes the owner count of the target only. -/
def recount (target : Option BlockId) (f : Nat → Nat) (b : Block) : Block :=
  if target = some b.id then b.countOwners f else b

variable (target : Option BlockId) (f : Nat → Nat) (b : Block)

@[simp] theorem recount_id : (b.recount target f).id = b.id := by
  unfold recount
  split <;> simp

theorem target?_recount : (b.recount target f).target? = b.target? := by
  unfold recount
  split
  · exact target?_congr (countOwners_content ..)
  · rfl

theorem recount_none : b.recount none f = b := if_neg nofun

theorem recount_some (id : BlockId) : b.recount (some id) f = if b.id = id then b.countOwners f else b := by
  simp only [recount, Option.some.injEq, eq_comm]

/-- The owner that came last is the one to go. -/
theorem recount_undo : (b.recount target (· + 1)).recount target (· - 1) = b := by
  unfold recount
  by_cases aimed : target = some b.id
  · rw [if_pos aimed, countOwners_id, if_pos aimed, countOwners_countOwners]
    obtain ⟨_, _, _, _, storage, _, _, _⟩ := b
    cases storage <;> rfl
  · rw [if_neg aimed, if_neg aimed]

/-- What becomes of a block when the block `id`, an owner of the target, goes out of scope. -/
def outlive (id : BlockId) (target : Option BlockId) (b : Block) : Block :=
  if b.id = id then b.die.aim none else (b.forget id).recount target (· - 1)

variable {b} {id : BlockId}

/-- A copy that leaves its scope takes away just the owner that it was. -/
theorem outlive_recount (other : b.id ≠ id) (elsewhere : b.target? ≠ some id) :
    (b.recount target (· + 1)).outlive id target = b := by
  rw [outlive, recount_id, if_neg other, forget, if_neg (by rwa [target?_recount]), recount_undo]

/-- What neither is the block nor points to it nor is its target outlives it unchanged. -/
theorem outlive_of_other {target : Option BlockId} (other : b.id ≠ id) (elsewhere : b.target? ≠ some id)
    (uncounted : target ≠ some b.id) : b.outlive id target = b := by
  rw [outlive, if_neg other, forget, if_neg elsewhere, recount, if_neg uncounted]

theorem aim_none_of_null (null : b.target? = none) : b.aim none = b := by
  obtain ⟨_, _, _, _, _, content, _, _⟩ := b
  cases content with
  | pointer p =>
    obtain ⟨_, target, _⟩ := p
    obtain rfl : target = none := null
    rfl
  | value | object => rfl

end Block

namespace Memory

variable {m low : Memory} {source : BlockId} {b : Block} {p : Pointer}

/-- A shared pointer on its way out takes one owner from its target, if that can spare it. -/
theorem Sound.leaveScope_blocks (sound : m.Sound) (member : b ∈ m.blocks) (holds : b.pointer? = some p)
    (shared : p.discipline = .shared)
    (spare : ∀ t ∈ m.blocks, p.target = some t.id → t.id ≠ b.id ∧ ∀ owners, t.owners? = some owners → 1 < owners) :
    (m.leaveScope b).memory.blocks = m.blocks.map (Block.outlive b.id p.target) := by
  cases aimed : p.target with
  | none =>
    have null : b.target? = none := (Block.target?_of_pointer? holds).trans aimed
    rw [leaveScope_of_unowned holds (.inl aimed), free_blocks]
    refine List.map_congr_left fun c there => ?_
    rw [Block.outlive, Block.recount_none, Block.bury]
    split
    · rename_i same
      have dead : c.die.target? = none := by
        rw [sound.eq_of_id there member same, ← null]
        exact Block.target?_congr (Block.countOwners_content ..)
      rw [Block.forget, dead, if_neg (by simp), Block.aim_none_of_null dead]
    · rfl
  | some id =>
    obtain ⟨t, there, rfl, live⟩ := sound.targetsLive b member id (Block.target?_eq_some.mpr ⟨p, holds, aimed⟩)
    obtain ⟨other, more⟩ := spare t there aimed
    have popped : t.bury b.id ∈ (m.free b "goes out of scope").blocks := by
      rw [free_blocks]
      exact List.mem_map_of_mem there
    have left := (sound.free b _).release_blocks_of_spare popped (by simp [live, other]) fun owners counts =>
      more owners (by rwa [Block.bury_owners?, if_neg other] at counts)
    rw [Block.bury_id] at left
    rw [leaveScope_of_shared holds shared aimed, update_blocks, left, free_blocks, List.map_map, List.map_map]
    refine List.map_congr_left fun c _ => ?_
    rw [Function.comp_apply, Function.comp_apply, Block.lose_id, Block.bury_id, Block.bury, Block.outlive]
    split
    · rename_i same
      rw [Block.lose_false, Block.forget_id, Block.die_id, if_neg fun this => other (this.symm.trans same),
        Block.forget_aim]
    · rw [Block.recount_some, Block.lose_false]

/-- What a run of operations answers. -/
def replies (m : Memory) : List Operation → List Reply
  | [] => []
  | first :: rest => (m.perform first).1 :: (m.perform first).2.replies rest

theorem replies_append (m : Memory) (first second : List Operation) :
    m.replies (first ++ second) = m.replies first ++ (m.run first).replies second := by
  induction first generalizing m with
  | nil => rfl
  | cons operation rest ih => rw [List.cons_append, replies, ih, replies, run_cons, List.cons_append]

/-- A copy is a live pointer on the stack, and its target has an owner more. -/
theorem pushCopy_recounts (m : Memory) (b : Block) (p : Pointer) (name : String) :
    ∃ c, (m.pushCopy b p name).blocks = m.blocks.map (Block.recount p.target (· + 1)) ++ [c] ∧ c.id = m.nextId ∧
      c.live ∧ c.isStack ∧ c.pointer? = some p ∧ (m.pushCopy b p name).stackDepth = m.stackDepth + 1 := by
  cases aimed : p.target with
  | none =>
    obtain ⟨c, pushed, stack, holds⟩ := m.pushCopy_pushes b aimed name
    refine ⟨c, ?_, pushed.id, pushed.live, stack, holds, ?_⟩
    · have same : m.blocks.map (Block.recount none (· + 1)) = m.blocks :=
        (List.map_congr_left fun t _ => t.recount_none _).trans (List.map_id' _)
      rw [pushed.blocks, same]
    · unfold pushCopy
      rw [aimed]
      rfl
  | some id =>
    obtain ⟨c, blocks, numbered, live, stack, holds⟩ := m.pushCopy_blocks b aimed name
    refine ⟨c, ?_, numbered, live, stack, holds, ?_⟩
    · rw [blocks, retain, update_blocks]
      exact congrArg (· ++ [c]) (List.map_congr_left fun t _ => (t.recount_some _ id).symm)
    · unfold pushCopy
      rw [aimed]
      rfl

/-- What was pushed onto `m` is gone: `low` is `m` but for the dead blocks behind, which point nowhere. -/
structure Restored (m low : Memory) (gone : List Block) : Prop where
  blocks : low.blocks = m.blocks ++ gone
  stackDepth : low.stackDepth = m.stackDepth
  dead : ∀ b ∈ gone, b.live = false
  null : ∀ b ∈ gone, b.target? = none

theorem leaveScope_popped (m : Memory) (b : Block) : (m.leaveScope b).popped = b.id := by
  unfold leaveScope
  dsimp only
  split
  · split <;> rfl
  · rfl
  · rfl

/-- A shared pointer that leaves its scope takes one from the depth, since its target lies on the heap. -/
theorem leaveScope_stackDepth (holds : b.pointer? = some p) (shared : p.discipline = .shared) (stack : b.isStack)
    (m : Memory) : (m.leaveScope b).memory.stackDepth = m.stackDepth - 1 := by
  have popped : (m.free b "goes out of scope").stackDepth = m.stackDepth - 1 := if_pos stack
  cases aimed : p.target with
  | none => rwa [leaveScope_of_unowned holds (.inl aimed)]
  | some id =>
    rw [leaveScope_of_shared holds shared aimed]
    exact (release_rest ..).1.trans popped

/-- A live block on the stack is the top one if all behind it are dead. -/
theorem getLast?_stackBlocks {below gone : List Block} {c : Block} (blocks : low.blocks = below ++ c :: gone)
    (live : c.live) (stack : c.isStack) (dead : ∀ d ∈ gone, d.live = false) : low.stackBlocks.getLast? = some c := by
  have behind : gone.filter (·.live) = [] := List.filter_eq_nil_iff.mpr fun d there => by simp [dead d there]
  simp only [stackBlocks, liveBlocks, blocks, List.filter_append, List.filter_cons, live, behind, if_true, stack,
    List.filter_nil, List.getLast?_append, List.getLast?_singleton, Option.some_or]

/-- The target of a live pointer was live before the copy was made, so it had an owner then and has at least two now. -/
theorem Reachable.spare_target (reach : m.Reachable) (held : m.LivePointer source b p) (sound : low.Sound)
    (gained : ∀ t ∈ m.blocks, t.recount p.target (· + 1) ∈ low.blocks) {t : Block} (there : t ∈ low.blocks)
    (aimed : p.target = some t.id) : t.id < m.nextId ∧ ∀ owners, t.owners? = some owners → 1 < owners := by
  obtain ⟨old, present, same, alive⟩ :=
    reach.sound.targetsLive b (block?_some held.found).1 t.id (Block.target?_eq_some.mpr ⟨p, held.holds, aimed⟩)
  obtain rfl := sound.eq_of_id (gained old present) there ((Block.recount_id ..).trans same)
  rw [Block.recount_id] at aimed ⊢
  refine ⟨reach.sound.id_lt_next present, fun owners counts => ?_⟩
  rw [Block.recount, if_pos aimed, Block.countOwners_owners?] at counts
  obtain ⟨before, counted, rfl⟩ := Option.map_eq_some_iff.mp counts
  exact Nat.succ_lt_succ ((reach.wellFormed.owned old present before counted).mp alive)

/-- A block that is dead and null has nothing left to lose when a live pointer goes out of scope. -/
theorem Sound.outlive_of_gone (sound : low.Sound) (held : low.LivePointer source b p) {d : Block}
    (there : d ∈ low.blocks) (dead : d.live = false) (null : d.target? = none) : d.outlive b.id p.target = d := by
  obtain ⟨member, _⟩ := block?_some held.found
  have apart {t : Block} (alive : t ∈ low.blocks) (living : t.live) : d.id ≠ t.id := by
    intro same
    rw [← sound.eq_of_id there alive same, dead] at living
    contradiction
  refine Block.outlive_of_other (apart member held.live) (by simp [null]) fun aimed => ?_
  obtain ⟨t, alive, same, living⟩ :=
    sound.targetsLive b member d.id (Block.target?_eq_some.mpr ⟨p, held.holds, aimed⟩)
  exact apart alive living same.symm

/-- Where all that came behind a copy is gone, leaving a scope pops the copy, and then the copy has left no trace but
itself. -/
theorem Reachable.undo_copy (reach : m.Reachable) (held : m.LivePointer source b p) (shared : p.discipline = .shared)
    {name : String} {gone : List Block} (sound : low.Sound) (restored : (m.pushCopy b p name).Restored low gone) :
    ∃ c, c.id = m.nextId ∧ (low.perform .endScope).1 = .popped (some m.nextId) ∧
      m.Restored (low.perform .endScope).2 (c :: gone) := by
  obtain ⟨c, pushed, numbered, live, stack, holds, deeper⟩ := m.pushCopy_recounts b p name
  have blocks : low.blocks = m.blocks.map (Block.recount p.target (· + 1)) ++ c :: gone := by
    rw [restored.blocks, pushed, List.append_assoc, List.singleton_append]
  have member : c ∈ low.blocks := blocks ▸ List.mem_append_right _ (List.mem_cons_self ..)
  have gained (t : Block) (there : t ∈ m.blocks) : t.recount p.target (· + 1) ∈ low.blocks :=
    blocks ▸ List.mem_append_left _ (List.mem_map_of_mem there)
  have last := getLast?_stackBlocks blocks live stack restored.dead
  have left : low.endScope? = some (low.leaveScope c) := by rw [endScope?, last, Option.map_some]
  have after := sound.leaveScope_blocks member holds shared fun t there aimed => by
    obtain ⟨older, more⟩ := reach.spare_target held sound gained there aimed
    exact ⟨Nat.ne_of_lt (numbered ▸ older), more⟩
  have old : (m.blocks.map (Block.recount p.target (· + 1))).map (Block.outlive c.id p.target) = m.blocks := by
    rw [List.map_map]
    refine (List.map_congr_left fun t there => ?_).trans (List.map_id' _)
    refine Block.outlive_recount _ (Nat.ne_of_lt (numbered ▸ reach.sound.id_lt_next there)) fun aimed => ?_
    exact Nat.lt_irrefl _ (numbered ▸ reach.sound.target_lt_next there aimed)
  have new : gone.map (Block.outlive c.id p.target) = gone := by
    refine (List.map_congr_left fun d there => ?_).trans (List.map_id' _)
    exact sound.outlive_of_gone ⟨sound.block?_of_mem member, live, holds⟩
      (blocks ▸ List.mem_append_right _ (List.mem_cons_of_mem _ there)) (restored.dead d there) (restored.null d there)
  have popped : low.perform .endScope = (.popped (some m.nextId), (low.leaveScope c).memory) := by
    simp only [Memory.perform, left, leaveScope_popped, numbered]
  rw [popped]
  refine ⟨c.die.aim none, by simpa using numbered, rfl, ?_, ?_, ?_, ?_⟩
  · rw [after, blocks, List.map_append, old, List.map_cons, new, Block.outlive, if_pos rfl]
  · rw [leaveScope_stackDepth holds shared stack, restored.stackDepth, deeper, Nat.add_sub_cancel]
  · exact List.forall_mem_cons.mpr ⟨by simp, restored.dead⟩
  · refine List.forall_mem_cons.mpr ⟨?_, restored.null⟩
    exact Option.eq_none_iff_forall_ne_some.mpr fun id aimed => absurd (Block.target?_aim aimed) (by simp)

/-- A copy that answers with a block has been made of a live shared pointer. -/
theorem copyShared_created {id : BlockId} {name : String}
    (made : (m.perform (.copyShared source name)).1 = .created id) :
    ∃ b p, m.LivePointer source b p ∧ p.discipline = .shared ∧ id = m.nextId ∧
      (m.perform (.copyShared source name)).2 = m.pushCopy b p name := by
  unfold perform at made ⊢
  dsimp only at made ⊢
  split at made
  · rename_i copy copied
    obtain ⟨b, p, held, shared, fresh, pushed⟩ := copyShared_eq_ok.mp copied
    exact ⟨b, p, held, shared, (Reply.created.inj made).symm.trans fresh, pushed⟩
  · contradiction

/-- One copy after the other, each of some block under some name. -/
def copying (copies : List (BlockId × String)) : List Operation :=
  copies.map fun (source, name) => .copyShared source name

/-- As many scope exits as there were copies pop just these, the last one first. Copies of copies are no different. All
blocks from before are as they were, their owners included, and so is the depth of the stack. -/
theorem copies_cancel (reach : m.Reachable) {copies : List (BlockId × String)} {ids : List BlockId}
    (made : m.replies (copying copies) = ids.map .created) :
    (m.run (copying copies)).replies (.replicate copies.length .endScope) = ids.reverse.map (.popped ∘ some) ∧
      ∃ gone, gone.map (·.id) = ids ∧
        m.Restored ((m.run (copying copies)).run (.replicate copies.length .endScope)) gone := by
  induction copies generalizing m ids with
  | nil =>
    obtain rfl := List.map_eq_nil_iff.mp made.symm
    exact ⟨rfl, [], rfl, (List.append_nil _).symm, rfl, nofun, nofun⟩
  | cons copy rest ih =>
    obtain ⟨source, name⟩ := copy
    obtain ⟨id, later, rfl, first, others⟩ := List.map_eq_cons_iff.mp made.symm
    obtain ⟨b, p, held, shared, rfl, pushed⟩ := copyShared_created first.symm
    obtain ⟨popped, gone, rfl, restored⟩ := ih (reach.perform _) others.symm
    rw [pushed] at popped restored
    have low : ((m.pushCopy b p name).run (copying rest)).Reachable := pushed ▸ (reach.perform _).run _
    obtain ⟨c, numbered, answer, undone⟩ := reach.undo_copy held shared (low.run _).sound restored
    have top : m.run (copying ((source, name) :: rest)) = (m.pushCopy b p name).run (copying rest) := by
      rw [← pushed]
      rfl
    rw [top, List.length_cons, List.replicate_succ', replies_append, run_append, popped]
    refine ⟨?_, c :: gone, by rw [List.map_cons, numbered], undone⟩
    rw [List.reverse_cons, List.map_append, replies, answer]
    rfl

/-- The second copy is one of the first, and the third is null. -/
theorem copies_cancel_of_three :
    ∃ (m top low : Memory) (gone : List Block), m.Reachable ∧ m.run (copying [(1, "a"), (4, "b"), (3, "c")]) = top ∧
      top.replies (.replicate 3 .endScope) = [.popped (some 6), .popped (some 5), .popped (some 4)] ∧
      top.run (.replicate 3 .endScope) = low ∧ low.blocks = m.blocks ++ gone ∧ gone.map (·.id) = [4, 5, 6] ∧
      (∀ b ∈ gone, b.live = false) ∧ low.stackDepth = m.stackDepth ∧
      m.blocks.map (·.owners?) = [none, some 1, none] ∧ (top.blocks.take 3).map (·.owners?) = [none, some 3, none] := by
  let m := (withCapacity 32).run [.createPointer "p" .shared none, .allocate "*p" 4 .shared,
    .createPointer "q" .shared none, .assignPointer 1 (some 2)]
  have reach : m.Reachable := Reachable.run (.fresh 32) _
  have made : m.replies (copying [(1, "a"), (4, "b"), (3, "c")]) = [4, 5, 6].map .created := by decide +kernel
  have before : m.blocks.map (·.owners?) = [none, some 1, none] := by decide +kernel
  have between : ((m.run (copying [(1, "a"), (4, "b"), (3, "c")])).blocks.take 3).map (·.owners?) =
      [none, some 3, none] := by decide +kernel
  obtain ⟨popped, gone, numbered, restored⟩ := copies_cancel reach made
  exact ⟨m, _, _, gone, reach, rfl, popped, rfl, restored.blocks, numbered, restored.dead, restored.stackDepth, before,
    between⟩

end Memory

end MemoryTrace
