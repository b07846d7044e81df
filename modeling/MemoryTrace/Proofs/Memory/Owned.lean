import MemoryTrace.Proofs.Memory.SharedCounts

namespace MemoryTrace

/-- How many owners a live heap block may have. -/
def Discipline.Allows : Discipline → Nat → Prop
  | raw, _ => True
  | unique, owners => owners = 1
  | shared, owners => 1 ≤ owners

namespace Memory

/-- Every pointer points to a heap block of its own discipline, and every live heap block has the owners that its
discipline asks for: the pointers that hold it and the occurrences in `loose`. As with counts, an operation may own
blocks itself for a moment. -/
structure Owned (m : Memory) (loose : List BlockId) : Prop where
  counted : m.Counted loose
  matched : ∀ d, m.Matched d
  owners : ∀ b ∈ m.blocks, b.live → ∀ d, b.isHeapOf d → d.Allows (m.holders d b.id + loose.count b.id)

theorem owned_withCapacity (capacity : Nat) : (withCapacity capacity).Owned [] where
  counted := counted_withCapacity capacity
  matched := fun _ _ member => nomatch member
  owners := fun _ member => nomatch member

variable {m next : Memory} {loose rest : List BlockId}

/-- A change in place keeps owners in order if it takes none from a block that lives on. -/
theorem owned_map {f : Block → Block} (counted : next.Counted rest) (matched : ∀ d, next.Matched d)
    (blocks : next.blocks = m.blocks.map f) (ids : ∀ b, (f b).id = b.id)
    (heap : ∀ d b, (f b).isHeapOf d = b.isHeapOf d)
    (owners : ∀ t ∈ m.blocks, (f t).live → ∀ d, d ≠ .raw → t.isHeapOf d →
      d.Allows (next.holders d t.id + rest.count t.id)) : next.Owned rest where
  counted := counted
  matched := matched
  owners := by
    intro b member live d kind
    rw [blocks] at member
    obtain ⟨t, there, rfl⟩ := List.mem_map.mp member
    rw [heap] at kind
    rw [ids]
    by_cases raw : d = .raw
    · rw [raw]
      trivial
    · exact owners t there live d raw kind

namespace Owned

variable (owned : m.Owned loose)

include owned

theorem sound : m.Sound := owned.counted.sound

theorem congr (blocks : next.blocks = m.blocks) (nextId : next.nextId = m.nextId) :
    next.Owned loose where
  counted := owned.counted.congr blocks nextId
  matched := fun d => (owned.matched d).congr blocks
  owners := by
    simp only [blocks, holders_congr blocks]
    exact owned.owners

/-- A live pointer holds its target once, and no other block of its discipline. -/
theorem count_target {b : Block} {p : Pointer} (member : b ∈ m.blocks) (live : b.live)
    (holds : b.pointer? = some p) {t : Block} (there : t ∈ m.blocks) {d : Discipline}
    (heap : t.isHeapOf d) : (b.holds d t.id).toNat = p.target.toList.count t.id :=
  Block.count_target_of_fits live holds (owned.matched _ b member p holds rfl t there) heap

/-- Aiming a pointer keeps owners in order if what it gains and gives up is made up for in `loose`. -/
theorem aim {b : Block} (member : b ∈ m.blocks) {target : Option BlockId}
    (live : ∀ id, target = some id → m.HasLive id)
    (fits : ∀ p, b.pointer? = some p → m.Fits p.discipline target)
    (balance : ∀ t ∈ m.blocks, ∀ d, d ≠ .raw → t.isHeapOf d →
      rest.count t.id + ((b.aim target).holds d t.id).toNat =
        loose.count t.id + (b.holds d t.id).toNat) :
    (m.update b.id (·.aim target)).Owned rest := by
  have counted : (m.update b.id (·.aim target)).Counted rest := by
    refine owned.counted.aim member live (fun p holds kind t there aimed => ?_) fun t there shared => ?_
    · exact kind ▸ fits p holds t there aimed
    · exact balance t there .shared (by decide) (Block.isHeapOf_shared.mpr shared)
  have matched (d : Discipline) : (m.update b.id (·.aim target)).Matched d :=
    (owned.matched d).aim owned.sound member fun p holds kind t there aimed =>
      kind ▸ fits p holds t there aimed
  refine owned_map counted matched rfl (fun c => ?_) (fun d c => ?_) fun t there live d raw heap => ?_
  · split <;> simp
  · split <;> simp
  · have before := owned.owners t there (by split at live <;> simpa using live) d heap
    have moved := balance t there d raw heap
    have changed := owned.sound.holders_update member (·.aim target) d t.id
    have total : (m.update b.id (·.aim target)).holders d t.id + rest.count t.id =
      m.holders d t.id + loose.count t.id := by omega
    rwa [total]

/-- Freeing a block keeps owners in order if what it held is made up for in `loose`. -/
theorem bury {b : Block} (member : b ∈ m.blocks)
    (blocks : next.blocks = m.blocks.map (Block.bury b.id)) (nextId : next.nextId = m.nextId)
    (balance : ∀ t ∈ m.blocks, t.id ≠ b.id → ∀ d, d ≠ .raw → t.isHeapOf d →
      rest.count t.id = loose.count t.id + (b.holds d t.id).toNat) : next.Owned rest := by
  have counted : next.Counted rest :=
    owned.counted.bury member blocks nextId fun t there other shared =>
    balance t there other .shared (by decide) (Block.isHeapOf_shared.mpr shared)
  refine owned_map counted (fun d => (owned.matched d).bury blocks) blocks (by simp) (by simp)
    fun t there live d raw heap => ?_
  rw [Block.bury_live, Bool.and_eq_true, decide_eq_true_eq] at live
  have before := owned.owners t there live.1 d heap
  have moved := balance t there live.2 d raw heap
  have buried : next.holders d t.id + _ = _ := owned.sound.holders_bury member blocks live.2
  have total : next.holders d t.id + rest.count t.id = m.holders d t.id + loose.count t.id := by
    omega
  rwa [total]

/-- A live shared block gains an owner. -/
theorem retain {id : BlockId} (live : ∀ t ∈ m.blocks, t.id = id → t.live ∧ t.isHeapOf .shared)
    (held : 0 < m.holders .shared id + loose.count id) : (m.retain id).Owned (id :: loose) := by
  have counted := owned.counted.retain (fun t there same => (live t there same).1) held
  refine owned_map counted (fun d => (owned.matched d).countOwners rfl) rfl (fun c => ?_)
    (fun d c => ?_)
    fun t there alive d raw heap => ?_
  · split <;> simp
  · split <;> simp
  · have before := owned.owners t there (by split at alive <;> simpa using alive) d heap
    have unmoved : (m.retain id).holders d t.id = m.holders d t.id := holders_countOwners rfl
    rw [unmoved]
    by_cases same : t.id = id
    · obtain rfl := Block.isHeapOf_inj heap (live t there same).2
      rw [same, List.count_cons_self]
      exact Nat.succ_le_succ (Nat.zero_le _)
    · rwa [List.count_cons_of_ne (Ne.symm same)]

end Owned

/-- The operation gives up a shared block it owns. -/
theorem Owned.release {id : BlockId} (owned : m.Owned (id :: rest))
    (shared : ∀ t ∈ m.blocks, t.id = id → t.isHeapOf .shared) : (m.release id).Owned rest := by
  have counted := owned.counted.release
  have matched (d : Discipline) : (m.release id).Matched d := (owned.matched d).release id
  have others {t : BlockId} (other : t ≠ id) : (id :: rest).count t = rest.count t :=
    List.count_cons_of_ne (Ne.symm other)
  cases m.released id with
  | kept same uncounted =>
    rw [same] at counted ⊢
    refine ⟨counted, owned.matched, fun b member live d heap => ?_⟩
    have other : b.id ≠ id := by
      intro this
      obtain ⟨owners, counts⟩ :=
        Option.isSome_iff_exists.mp (Block.isHeapOf_shared.mp (shared b member this))
      have positive := owned.counted.counts b member owners counts
      rw [if_pos live] at positive
      obtain ⟨fewer, rfl⟩ := Nat.exists_eq_succ_of_ne_zero (show owners ≠ 0 by omega)
      exact uncounted b (owned.sound.block?_eq_some.mpr ⟨member, this⟩) live fewer counts
    rw [← others other]
    exact owned.owners b member live d heap
  | @counted b owners found live before after =>
    obtain ⟨member, this⟩ := block?_some found
    refine owned_map counted matched after (fun c => ?_) (fun d c => ?_)
      fun t there alive d _ heap => ?_
    · split <;> simp
    · split <;> simp
    · rw [holders_countOwners after]
      by_cases same : t.id = id
      · obtain rfl := Block.isHeapOf_inj heap (shared t there same)
        obtain rfl := owned.sound.eq_of_id there member (same.trans this.symm)
        have exact_before := owned.counted.counts t member _ before
        rw [if_pos live, same, List.count_cons_self] at exact_before
        rw [same]
        show 1 ≤ _
        omega
      · rw [← others same]
        exact owned.owners t there (by split at alive <;> simpa using alive) d heap
  | @freed b found live before after =>
    obtain ⟨member, rfl⟩ := block?_some found
    refine owned.bury member after (m.release_nextId b.id) fun t _ other d _ _ => ?_
    have plain := owned.sound.plain_of_owners? member (Option.isSome_of_eq_some before)
    rw [Block.holds_of_plain plain, others other]
    rfl

namespace Owned

section Pointers

variable {pointer : BlockId} {b : Block} {p : Pointer} (held : m.LivePointer pointer b p)

include held

/-- A raw pointer owns nothing by pointing. -/
theorem aimRaw (owned : m.Owned loose) (owner : p.discipline = .raw) {target : Option BlockId}
    (live : ∀ id, target = some id → m.HasLive id)
    (fits : m.Fits .raw target) : (m.update pointer (·.aim target)).Owned loose := by
  obtain ⟨member, rfl⟩ := block?_some held.found
  refine owned.aim member live (fun q holds => ?_) fun t _ d raw _ => ?_
  · obtain rfl := Option.some.inj (held.holds.symm.trans holds)
    exact owner ▸ fits
  · have other : p.discipline ≠ d := fun same => raw (same.symm.trans owner)
    rw [Block.holds_of_other held.holds other, Block.holds_of_other (held.aim target).holds other]

/-- A pointer that becomes null leaves its target to the operation. -/
theorem drop (owned : m.Owned loose) :
    (m.update pointer (·.aim none)).Owned (p.target.toList ++ loose) := by
  obtain ⟨member, rfl⟩ := block?_some held.found
  refine owned.aim member nofun (fun _ _ _ _ aimed => nomatch aimed) fun t there d _ heap => ?_
  rw [Block.holds_aim_none, owned.count_target member held.live held.holds there heap,
    List.count_append]
  simp [Nat.add_comm]

/-- A null pointer takes over what the operation owns. -/
theorem take {target : Option BlockId} (owned : m.Owned (target.toList ++ loose))
    (null : p.target = none) (live : ∀ id, target = some id → m.HasLive id)
    (fits : m.Fits p.discipline target) : (m.update pointer (·.aim target)).Owned loose := by
  have aimed := held.aim target
  obtain ⟨member, rfl⟩ := block?_some held.found
  refine owned.aim member live (fun q holds => ?_) fun t there d _ heap => ?_
  · obtain rfl := Option.some.inj (held.holds.symm.trans holds)
    exact fits
  · rw [Block.count_target_of_fits aimed.live aimed.holds (fits t there) heap, List.count_append,
      owned.count_target member held.live held.holds there heap, null]
    simp [Nat.add_comm]

end Pointers

end Owned

end Memory

end MemoryTrace
