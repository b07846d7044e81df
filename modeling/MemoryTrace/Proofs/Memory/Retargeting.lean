import MemoryTrace.Proofs.Memory.InPlace
import MemoryTrace.Proofs.Memory.Refusal

namespace MemoryTrace

/-- A shared pointer to a shared block is one of its owners. -/
structure Pointer.OwnerOf (m : Memory) (p : Pointer) (t : Block) : Prop where
  shared : p.discipline = .shared
  aimed : p.target = some t.id
  member : t ∈ m.blocks
  counts : t.owners?.isSome

namespace Memory

variable {m : Memory} {pointer : BlockId} {b : Block} {p : Pointer} {target : Option BlockId}

/-- From `m` to `next`, the pointer `p` of block `b` has been aimed at `target`, with all that this brings about and
nothing else. -/
structure Retargeted (m : Memory) (b : Block) (p : Pointer) (target : Option BlockId) (next : Memory) : Prop where
  nextId : next.nextId = m.nextId
  stackDepth : next.stackDepth = m.stackDepth
  nextHeapAddress : next.nextHeapAddress = m.nextHeapAddress
  clock : next.clock = m.clock
  ids : next.blocks.map (·.id) = m.blocks.map (·.id)
  pointer : next.block? b.id = some (b.aim target)
  left : ∀ old, p.OwnerOf m old → ∀ owners, old.owners? = some owners →
    0 < owners ∧ next.block? old.id = some { old.countOwners (· - 1) with live := owners ≠ 1 }
  cleared : ∀ old, p.OwnerOf m old → old.owners? = some 1 →
    ∀ c ∈ m.blocks, c.id ≠ b.id → c.target? = some old.id → next.block? c.id = some (c.aim none)
  adopted : ∀ new, { p with target }.OwnerOf m new →
    (¬ ∃ q ∈ m.blocks, q.id ≠ b.id ∧ q.sharesOwnershipOf new.id) → next.block? new.id = some new
  joined : ∀ new, { p with target }.OwnerOf m new →
    (∃ q ∈ m.blocks, q.id ≠ b.id ∧ q.sharesOwnershipOf new.id) → next.block? new.id = some (new.countOwners (· + 1))
  others : ∀ c ∈ m.blocks, c.id ≠ b.id → ¬ p.OwnerOf m c → ¬ { p with target }.OwnerOf m c →
    (∀ old, p.OwnerOf m old → old.owners? = some 1 → c.target? ≠ some old.id) → next.block? c.id = some c

/-- `f` is what becomes of each block when the pointer `p` of block `b` leaves its target. -/
structure Leaving (m : Memory) (b : Block) (p : Pointer) (f : Block → Block) : Prop where
  blocks : (m.leaveTarget p).blocks = m.blocks.map f
  id : ∀ c, (f c).id = c.id
  pointer : ∀ target, (f b).aim target = b.aim target
  left : ∀ old, p.OwnerOf m old → ∀ owners, old.owners? = some owners →
    0 < owners ∧ f old = { old.countOwners (· - 1) with live := owners ≠ 1 }
  cleared : ∀ old, p.OwnerOf m old → old.owners? = some 1 →
    ∀ c ∈ m.blocks, c.target? = some old.id → f c = c.aim none
  others : ∀ c ∈ m.blocks, ¬ p.OwnerOf m c →
    (∀ old, p.OwnerOf m old → old.owners? = some 1 → c.target? ≠ some old.id) → f c = c
  sharers : ∀ c ∈ m.blocks, ∀ id, p.target ≠ some id → (f c).sharesOwnershipOf id = c.sharesOwnershipOf id

namespace Leaving

/-- Who is no owner leaves nothing behind. -/
theorem of_no_owner (unowned : ∀ old, ¬ p.OwnerOf m old) (same : m.leaveTarget p = m) : m.Leaving b p fun c => c where
  blocks := by rw [same, List.map_id']
  id _ := rfl
  pointer _ := rfl
  left old owner := absurd owner (unowned old)
  cleared old owner := absurd owner (unowned old)
  others _ _ _ _ := rfl
  sharers _ _ _ _ := rfl

/-- An owner that leaves its target takes one from its count, and pointers to it become null where that was the last.
The pointer has only one target, so that it is an owner of nothing else. -/
theorem of_owner (sound : m.Sound) (member : b ∈ m.blocks) (holds : b.pointer? = some p) {old : Block}
    (owner : p.OwnerOf m old) {owners : Nat} (counts : old.owners? = some owners) (owned : 0 < owners)
    (blocks : (m.leaveTarget p).blocks = m.blocks.map (Block.lose old.id (owners = 1))) (live : old.live) :
    m.Leaving b p (Block.lose old.id (owners = 1)) := by
  have plain := sound.plain_of_owners? owner.member owner.counts
  have only {other : Block} (also : p.OwnerOf m other) : other = old :=
    sound.eq_of_id also.member owner.member (Option.some.inj (also.aimed.symm.trans owner.aimed))
  have pointers {c : Block} (there : c ∈ m.blocks) (points : c.target? ≠ none) : c.id ≠ old.id := by
    intro same
    obtain rfl := sound.eq_of_id there owner.member same
    exact points (by simp [Block.target?, plain])
  have rests {c : Block} (other : c.id ≠ old.id) (kept : owners = 1 → c.target? ≠ some old.id) :
      c.lose old.id (owners = 1) = c :=
    Block.lose_of_other other fun last => kept (of_decide_eq_true last)
  refine ⟨blocks, Block.lose_id _ _, fun target => ?_, fun other also left same => ?_,
    fun other also one c there aimed => ?_, fun c there unowned kept => ?_, fun c there id elsewhere => ?_⟩
  · have apart := pointers member (by simp [Block.target?_of_pointer? holds, owner.aimed])
    cases decide (owners = 1) with
    | true => rw [Block.lose_true, Block.bury, if_neg apart, Block.forget_aim]
    | false => rw [Block.lose_false, if_neg apart]
  · obtain rfl := only also
    obtain rfl := Option.some.inj (counts.symm.trans same)
    exact ⟨owned, Block.lose_self plain live counts⟩
  · obtain rfl := only also
    obtain rfl := Option.some.inj (counts.symm.trans one)
    exact Block.bury_of_target (pointers there (by simp [aimed])) aimed
  · refine rests (fun same => unowned ?_) fun last => kept old owner (by rw [counts, last])
    rwa [sound.eq_of_id there owner.member same]
  · rw [Block.sharesOwnershipOf_eq, Block.sharesOwnershipOf_eq]
    by_cases same : c.id = old.id
    · obtain rfl := sound.eq_of_id there owner.member same
      rw [Block.lose_self plain live counts, Block.holds_of_plain plain]
      exact Block.holds_of_plain (by simpa [Block.pointer?] using plain) ..
    · cases decide (owners = 1) with
      | true =>
        have different : id ≠ old.id := fun equal => elsewhere (equal ▸ owner.aimed)
        simp [Block.lose_true, Block.holds_bury, same, different]
      | false => rw [Block.lose_false, if_neg same]

end Leaving

/-- In a reachable memory every pointer can leave its target. -/
theorem Reachable.leaving (reach : m.Reachable) (member : b ∈ m.blocks) (holds : b.pointer? = some p) :
    ∃ f, m.Leaving b p f := by
  have sound := reach.sound
  by_cases owning : ∃ old, p.OwnerOf m old
  · obtain ⟨old, owner⟩ := owning
    obtain ⟨owners, counts⟩ := Option.isSome_iff_exists.mp owner.counts
    obtain ⟨t, there, same, live⟩ :=
      sound.targetsLive b member old.id (Block.target?_eq_some.mpr ⟨p, holds, owner.aimed⟩)
    obtain rfl := sound.eq_of_id there owner.member same
    have owned := (reach.wellFormed.owned t there owners counts).mp live
    have left : m.leaveTarget p = m.release t.id := by simp only [leaveTarget, owner.shared, owner.aimed]
    have released := left ▸ sound.release_blocks there live counts owned
    exact ⟨_, .of_owner sound member holds owner counts owned released live⟩
  · refine ⟨_, .of_no_owner (not_exists.mp owning) ?_⟩
    unfold leaveTarget
    split
    · rename_i old shared aimed
      refine release_of_uncounted fun t found => Option.not_isSome_iff_eq_none.mp fun counts => owning ⟨t, ?_⟩
      obtain ⟨there, rfl⟩ := block?_some found
      exact ⟨shared, aimed, there, counts⟩
    · rfl

theorem leaveTarget_rest (m : Memory) (p : Pointer) :
    (m.leaveTarget p).stackDepth = m.stackDepth ∧ (m.leaveTarget p).nextHeapAddress = m.nextHeapAddress ∧
      (m.leaveTarget p).clock = m.clock := by
  unfold leaveTarget
  split
  · exact release_rest m _
  · exact ⟨rfl, rfl, rfl⟩

/-- Aiming a pointer leaves the stack, the heap and the clock alone. -/
theorem reaim_rest (m : Memory) (b : Block) (p : Pointer) (target : Option BlockId) :
    (m.reaim b p target).stackDepth = m.stackDepth ∧ (m.reaim b p target).nextHeapAddress = m.nextHeapAddress ∧
      (m.reaim b p target).clock = m.clock := by
  have left := leaveTarget_rest m p
  unfold reaim
  cases target with
  | none => exact left
  | some id =>
    dsimp only
    split <;> exact left

/-- What becomes of a block when the pointer `p` of block `b` enters `target`. -/
def joining (m : Memory) (b : Block) (p : Pointer) (target : Option BlockId) (c : Block) : Block :=
  if p.discipline = .shared ∧ target = some c.id ∧ ∃ q ∈ m.blocks, q.id ≠ b.id ∧ q.sharesOwnershipOf c.id then
    c.countOwners (· + 1)
  else c

theorem joining_id (c : Block) : (m.joining b p target c).id = c.id := by
  unfold joining
  split <;> simp

theorem joining_of_uncounted {c : Block} (uncounted : c.owners? = none) : m.joining b p target c = c := by
  unfold joining
  split
  · exact Block.countOwners_of_uncounted uncounted _
  · rfl

theorem joining_of_no_owner {c : Block} (member : c ∈ m.blocks) (unowned : ¬ { p with target }.OwnerOf m c) :
    m.joining b p target c = c := by
  cases counts : c.owners? with
  | none => exact joining_of_uncounted counts
  | some owners =>
    exact if_neg fun joins => unowned ⟨joins.1, joins.2.1, member, Option.isSome_of_eq_some counts⟩

namespace Leaving

variable {f : Block → Block} (leaving : m.Leaving b p f) (sound : m.Sound) (member : b ∈ m.blocks)
  (holds : b.pointer? = some p) (moved : p.target ≠ target)

include leaving sound member holds moved

/-- Leaving the old target does not change who else is an owner of the new one, and the pointer itself is not. -/
theorem any_sharesOwnershipOf {id : BlockId} (aimed : target = some id) :
    (m.leaveTarget p).blocks.any (·.sharesOwnershipOf id) ↔
      ∃ q ∈ m.blocks, q.id ≠ b.id ∧ q.sharesOwnershipOf id := by
  have elsewhere : p.target ≠ some id := aimed ▸ moved
  rw [leaving.blocks, List.any_map, List.any_eq_true]
  refine exists_congr fun q => and_congr_right fun there => ?_
  rw [Function.comp_apply, leaving.sharers q there id elsewhere]
  refine ⟨fun shares => ⟨fun same => ?_, shares⟩, And.right⟩
  obtain rfl := sound.eq_of_id there member same
  exact elsewhere (Block.target?_of_pointer? holds ▸ Block.target?_of_holds shares)

/-- Aiming changes each block by what leaving the old target and joining the new one make of it. -/
theorem reaim_map :
    (m.reaim b p target).blocks =
      m.blocks.map fun c => m.joining b p target (if c.id = b.id then c.aim target else f c) := by
  have aimed : ((m.leaveTarget p).update b.id (·.aim target)).blocks =
      m.blocks.map fun c => if c.id = b.id then c.aim target else f c := by
    rw [update_blocks, leaving.blocks, List.map_map]
    refine List.map_congr_left fun c there => ?_
    rw [Function.comp_apply, leaving.id]
    split
    · rename_i same
      rw [sound.eq_of_id there member same, leaving.pointer]
    · rfl
  unfold reaim
  cases target with
  | none =>
    rw [record_blocks, aimed]
    exact List.map_congr_left fun c _ => (if_neg fun joins => nomatch joins.2.1).symm
  | some id =>
    have owned := leaving.any_sharesOwnershipOf sound member holds moved rfl
    dsimp only
    rw [record_blocks]
    split
    · rename_i joins
      rw [retain, update_blocks, aimed, List.map_map]
      refine List.map_congr_left fun c _ => ?_
      rw [Function.comp_apply]
      generalize (if c.id = b.id then c.aim (some id) else f c) = d
      unfold joining
      by_cases same : d.id = id
      · rw [if_pos same, if_pos ⟨joins.1, congrArg some same.symm, same ▸ owned.mp joins.2⟩]
      · rw [if_neg same, if_neg fun joins => same (Option.some.inj joins.2.1).symm]
    · rename_i stays
      rw [aimed]
      refine List.map_congr_left fun c _ => (if_neg fun joins => stays ⟨joins.1, owned.mpr ?_⟩).symm
      rw [Option.some.inj joins.2.1]
      exact joins.2.2

end Leaving

/-- The old target loses an owner and the new one may gain one, and where the last owner has gone, pointers to the old
target become null. Nothing else changes. Both targets cannot be one block, since the pointer has moved. -/
theorem Reachable.reaim_retargeted (reach : m.Reachable) (held : m.LivePointer pointer b p)
    (moved : p.target ≠ target) : m.Retargeted b p target (m.reaim b p target) := by
  have sound := reach.sound
  have member := (block?_some held.found).1
  obtain ⟨f, leaving⟩ := reach.leaving member held.holds
  obtain ⟨depth, heap, time⟩ := reaim_rest m b p target
  have blocks := leaving.reaim_map sound member held.holds moved
  have ids (c : Block) : (m.joining b p target (if c.id = b.id then c.aim target else f c)).id = c.id := by
    rw [joining_id]
    split
    · exact c.aim_id target
    · exact leaving.id c
  have becomes {c : Block} (there : c ∈ m.blocks) := sound.block?_of_map blocks ids there
  have stack : b.isStack := sound.pointersOnStack b member (Option.isSome_of_eq_some held.holds)
  have apart {p : Pointer} {c : Block} (owner : p.OwnerOf m c) : c.id ≠ b.id := by
    intro same
    have counts := owner.counts
    rw [sound.eq_of_id owner.member member same, Block.owners?_of_isStack stack] at counts
    contradiction
  have differ {old new : Block} (owner : p.OwnerOf m old) (owning : { p with target }.OwnerOf m new) :
      old.id ≠ new.id := fun same => moved (owner.aimed.trans (same ▸ owning.aimed.symm))
  have stays {new : Block} (owning : { p with target }.OwnerOf m new) : f new = new := by
    refine leaving.others new owning.member (fun owner => differ owner owning rfl) fun old _ _ aimed => ?_
    have plain := sound.plain_of_owners? owning.member owning.counts
    simp [Block.target?, plain] at aimed
  refine ⟨reaim_nextId .., depth, heap, time, ?_, ?_, fun old owner owners counts => ?_,
    fun old owner last c there other aimed => ?_, fun new owning alone => ?_, fun new owning others => ?_,
    fun c there other left entered kept => ?_⟩
  · rw [blocks, List.map_map]
    exact List.map_congr_left fun c _ => ids c
  · rw [becomes member, if_pos rfl, joining_of_uncounted]
    rw [Block.aim_owners?, Block.owners?_of_isStack stack]
  · obtain ⟨owned, one_less⟩ := leaving.left old owner owners counts
    refine ⟨owned, ?_⟩
    rw [becomes owner.member, if_neg (apart owner), one_less, joining, if_neg]
    intro joins
    exact moved (owner.aimed.trans (joins.2.1.trans (congrArg some (Block.countOwners_id _ old))).symm)
  · obtain ⟨q, points, _⟩ := Block.target?_eq_some.mp aimed
    have on_stack := sound.pointersOnStack c there (Option.isSome_of_eq_some points)
    rw [becomes there, if_neg other, leaving.cleared old owner last c there aimed, joining_of_uncounted]
    rw [Block.aim_owners?, Block.owners?_of_isStack on_stack]
  · rw [becomes owning.member, if_neg (apart owning), stays owning, joining, if_neg fun joins => alone joins.2.2]
  · rw [becomes owning.member, if_neg (apart owning), stays owning, joining,
      if_pos ⟨owning.shared, owning.aimed, others⟩]
  · rw [becomes there, if_neg other, leaving.others c there left kept, joining_of_no_owner there entered]

/-- Whatever the memory, a live pointer can be aimed at nothing or at a live block. That does what it is meant to do
and nothing else, and where the pointer already points there it does nothing at all. -/
theorem assignment_exact (reach : m.Reachable) (held : m.LivePointer pointer b p)
    (live : ∀ id, target = some id → m.HasLive id) :
    ∃ next, m.assignPointer pointer target = .ok next ∧ (p.target = target → next = m) ∧
      (p.target ≠ target → m.Retargeted b p target next) := by
  have there : ∀ id, target = some id → ∃ t, m.block? id = some t ∧ t.live :=
    fun id aimed => reach.sound.hasLive_iff.mp (live id aimed)
  refine ⟨_, assignPointer_eq_ok.mpr ⟨b, p, held, there, rfl⟩, fun same => if_pos same, fun moved => ?_⟩
  rw [if_neg moved]
  exact reach.reaim_retargeted held moved

/-- The last shared pointer leaves block 4 for block 5, which another one shares already. Block 4 is freed, the raw
pointer to it becomes null, and block 5 has an owner more. -/
theorem assignment_exact_of_last_owner :
    ∃ (m next : Memory) (b old new raw : Block), m.Reachable ∧ m.assignPointer 1 (some 5) = .ok next ∧
      m.block? 1 = some b ∧ b.target? = some 4 ∧ next.block? 1 = some (b.aim (some 5)) ∧
      m.block? 4 = some old ∧ old.owners? = some 1 ∧
      next.block? 4 = some { old.countOwners (· - 1) with live := false } ∧
      m.block? 5 = some new ∧ new.owners? = some 1 ∧ next.block? 5 = some (new.countOwners (· + 1)) ∧
      m.block? 3 = some raw ∧ raw.target? = some 4 ∧ next.block? 3 = some (raw.aim none) ∧
      next.stackDepth = m.stackDepth := by
  let m := (withCapacity 32).run [.createPointer "p" .shared none, .createPointer "q" .shared none,
    .createPointer "r" .raw none, .allocate "*p" 4 .shared, .allocate "*q" 4 .shared, .assignPointer 1 (some 4),
    .assignPointer 2 (some 5), .assignPointer 3 (some 4)]
  have reach : m.Reachable := Reachable.run (.fresh 32) _
  obtain ⟨b, pointer, holds, live⟩ :
      ∃ b ∈ m.block? 1, b.pointer? = some { discipline := .shared, target := some 4 } ∧ b.live := by decide +kernel
  obtain ⟨⟨old, there, four, last⟩, ⟨new, present, five, one, alive⟩, raw, member, three, aimed⟩ :
      (∃ old ∈ m.blocks, old.id = 4 ∧ old.owners? = some 1) ∧
        (∃ new ∈ m.blocks, new.id = 5 ∧ new.owners? = some 1 ∧ new.live) ∧
        ∃ raw ∈ m.blocks, raw.id = 3 ∧ raw.target? = some 4 := by decide +kernel
  have sound := reach.sound
  have held : m.LivePointer 1 b _ := ⟨pointer, live, holds⟩
  have first : b.id = 1 := (block?_some pointer).2
  have target : ∀ id, some 5 = some id → m.HasLive id :=
    fun _ same => Option.some.inj same ▸ ⟨new, present, five, alive⟩
  obtain ⟨next, done, _, moved⟩ := assignment_exact reach held target
  have effect := moved (by simp)
  have owner : Pointer.OwnerOf m { discipline := .shared, target := some 4 } old :=
    ⟨rfl, congrArg some four.symm, there, Option.isSome_of_eq_some last⟩
  have owning : Pointer.OwnerOf m { discipline := .shared, target := some 5 } new :=
    ⟨rfl, congrArg some five.symm, present, Option.isSome_of_eq_some one⟩
  have shared : ∃ q ∈ m.blocks, q.id ≠ 1 ∧ q.sharesOwnershipOf 5 := by decide +kernel
  refine ⟨m, next, b, old, new, raw, reach, done, pointer, Block.target?_of_pointer? holds, first ▸ effect.pointer,
    four ▸ sound.block?_of_mem there, last, four ▸ (effect.left old owner 1 last).2,
    five ▸ sound.block?_of_mem present, one, five ▸ effect.joined new owning (by rwa [first, five]),
    three ▸ sound.block?_of_mem member, aimed, ?_, effect.stackDepth⟩
  exact three ▸ effect.cleared old owner last raw member (by simp [three, first]) (four ▸ aimed)

end Memory

end MemoryTrace
