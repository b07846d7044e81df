import MemoryTrace.Proofs.Memory.WellFormed
import MemoryTrace.Proofs.Session.Reach

namespace MemoryTrace

/-- The slot of a block on the stack. -/
def Block.slot? (b : Block) : Option Nat :=
  match b.storage with
  | .stack slot => some slot
  | _ => none

@[simp] theorem Block.form_slot? (b : Block) : b.form.slot? = b.slot? := by
  obtain ⟨_, _, _, _, storage, content, _, _⟩ := b
  cases storage <;> cases content <;> rfl

namespace Memory

variable {m next : Memory}

/-- The live blocks on the stack that are older than `id`. -/
def under (m : Memory) (id : BlockId) : List Block := m.stackBlocks.filter fun b => b.id < id

/-- No more blocks lie under one than are on the stack. -/
theorem length_under_le (m : Memory) (id : BlockId) : (m.under id).length ≤ m.stackBlocks.length :=
  List.length_filter_le ..

/-- What lies under the older of two blocks lies under the newer one. -/
theorem under_under (m : Memory) {id newer : BlockId} (older : id ≤ newer) :
    (m.under newer).filter (·.id < id) = m.under id := by
  rw [under, List.filter_filter]
  refine List.filter_congr fun b _ => ?_
  rw [← Bool.decide_and]
  exact decide_eq_decide.mpr (and_iff_left_of_imp fun before => Nat.lt_of_lt_of_le before older)

/-- A live block on the stack lies under any newer one, and so does all that it lies on. -/
theorem length_under_lt {b : Block} (member : b ∈ m.stackBlocks) {id : BlockId} (older : b.id < id) :
    (m.under b.id).length < (m.under id).length := by
  rw [← under_under m (Nat.le_of_lt older)]
  have below : b ∈ m.under id := List.mem_filter.mpr ⟨member, decide_eq_true older⟩
  exact List.length_filter_lt_length_iff_exists.mpr ⟨b, below, by simp⟩

/-- A stack block lies where its slot says, and a live one has at least as many slots below it as there are older live
blocks on the stack. -/
structure Stacked (m : Memory) : Prop where
  address : ∀ b ∈ m.blocks, ∀ i, b.slot? = some i → b.address = stackStart + i * slotStride
  room : ∀ b ∈ m.blocks, b.live → ∀ i, b.slot? = some i → (m.under b.id).length ≤ i

theorem stacked_withCapacity (capacity : Nat) : (withCapacity capacity).Stacked where
  address := fun _ member => nomatch member
  room := fun _ member => nomatch member

/-- A new block lies under none of the others. -/
theorem Stacked.push (stacked : m.Stacked) {b : Block} (blocks : next.blocks = m.blocks ++ [b])
    (under : ∀ c ∈ m.blocks, next.under c.id = m.under c.id)
    (address : ∀ i, b.slot? = some i → b.address = stackStart + i * slotStride)
    (room : ∀ i, b.slot? = some i → (next.under b.id).length ≤ i) : next.Stacked where
  address := by
    intro c member
    rw [blocks] at member
    rcases List.mem_append.mp member with old | new
    · exact stacked.address c old
    · rwa [List.mem_singleton.mp new]
  room := by
    intro c member live
    rw [blocks] at member
    rcases List.mem_append.mp member with old | new
    · rw [under c old]
      exact stacked.room c old live
    · rwa [List.mem_singleton.mp new]

/-- A step keeps slots in order. Whatever dies, at most there are fewer blocks under the others. -/
theorem Effect.stacked (effect : m.Effect next) (sound : m.Sound) (formed : m.WellFormed) (stacked : m.Stacked) :
    next.Stacked := by
  cases effect with
  | pushStack name size content pushed =>
    subst pushed
    have below (id : BlockId) (old : id ≤ m.nextId) : (m.pushStack name size content).under id = m.under id := by
      rw [under, stackBlocks_pushStack, List.filter_append, under]
      simpa using old
    refine stacked.push rfl (fun c member => below _ (Nat.le_of_lt (sound.id_lt_next member))) ?_ ?_
    · rintro _ ⟨⟩
      rfl
    · rintro _ ⟨⟩
      rw [below _ (Nat.le_refl _), formed.depth]
      exact length_under_le ..
  | pushHeap name size discipline content pushed =>
    subst pushed
    refine stacked.push rfl (fun c _ => by rw [under, stackBlocks_pushHeap, under]) ?_ ?_
    · cases discipline <;> nofun
    · cases discipline <;> nofun
  | @inPlace f blocks form lives _ =>
    have stack (b : Block) : (f b).isStack = b.isStack := Block.of_form Block.form_isStack (form b)
    have fewer (id : BlockId) : (next.under id).length ≤ (m.under id).length := by
      simp only [under, stackBlocks, liveBlocks, List.filter_filter, ← List.countP_eq_length_filter, blocks,
        List.countP_map]
      refine List.countP_mono_left fun b _ => ?_
      simp only [Function.comp_apply, Bool.and_eq_true, Block.id_of_form (form b), stack b]
      exact And.imp_right (And.imp_right (lives b))
    refine ⟨?_, ?_⟩
    · intro c member i at_slot
      rw [blocks] at member
      obtain ⟨b, old, rfl⟩ := List.mem_map.mp member
      rw [Block.of_form Block.form_slot? (form b)] at at_slot
      rw [Block.of_form Block.form_address (form b)]
      exact stacked.address b old i at_slot
    · intro c member live i at_slot
      rw [blocks] at member
      obtain ⟨b, old, rfl⟩ := List.mem_map.mp member
      rw [Block.of_form Block.form_slot? (form b)] at at_slot
      rw [Block.id_of_form (form b)]
      exact Nat.le_trans (fewer b.id) (stacked.room b old (lives b live) i at_slot)

/-- A block gets the slot on top, and as long as nothing goes from under it, no later block gets the same one. -/
theorem Reachable.stacked (reach : m.Reachable) : m.Stacked := by
  have both := reach.holds (I := fun m => m.WellFormed ∧ m.Stacked)
    (fun capacity => ⟨wellFormed_withCapacity capacity, stacked_withCapacity capacity⟩)
    fun m next sound step kept => ⟨step.wellFormed sound kept.1, step.effect.stacked sound kept.1 kept.2⟩
  exact both.2

end Memory

/-- A block on the stack lies where its slot says. It gets the slot above the live blocks, so a live one never has fewer
slots below it than there are older live ones. Of two live ones the newer has the higher slot and address if more live
blocks are older than it than the older one has slots below it, and so it is if everything that was under the older one
is still there. -/
theorem newer_slots_higher {s : Session} (reach : s.Reachable) :
    (∀ b ∈ s.memory.blocks, ∀ i, b.slot? = some i → b.address = stackStart + i * slotStride) ∧
    (∀ name size content, ∃ b, (s.memory.pushStack name size content).blocks = s.memory.blocks ++ [b] ∧
      b.slot? = some s.memory.stackBlocks.length) ∧
    (∀ b ∈ s.memory.stackBlocks, ∀ i, b.slot? = some i → (s.memory.under b.id).length ≤ i) ∧
    ∀ b ∈ s.memory.stackBlocks, ∀ c ∈ s.memory.stackBlocks, b.id < c.id → ∀ i j, b.slot? = some i → c.slot? = some j →
      (i = (s.memory.under b.id).length → i < (s.memory.under c.id).length) ∧
      (i < (s.memory.under c.id).length → i < j ∧ b.address < c.address) := by
  have stacked := reach.memory_reachable.stacked
  have member {b : Block} (there : b ∈ s.memory.stackBlocks) : b ∈ s.memory.blocks ∧ b.live := by
    rw [Memory.stackBlocks, Memory.liveBlocks, List.mem_filter, List.mem_filter] at there
    exact there.1
  have room (b : Block) (there : b ∈ s.memory.stackBlocks) : ∀ i, b.slot? = some i → (s.memory.under b.id).length ≤ i :=
    stacked.room b (member there).1 (member there).2
  refine ⟨stacked.address, fun name size content => ?_, room, fun b below c above older i j at_i at_j => ⟨?_, ?_⟩⟩
  · exact ⟨_, rfl, congrArg some reach.memory_reachable.wellFormed.depth⟩
  · rintro rfl
    exact Memory.length_under_lt below older
  · intro left
    have higher : i < j := Nat.lt_of_lt_of_le left (room c above j at_j)
    rw [stacked.address b (member below).1 i at_i, stacked.address c (member above).1 j at_j]
    exact ⟨higher, Nat.add_lt_add_left (Nat.mul_lt_mul_of_pos_right higher (by decide)) _⟩

/-- `x` has been freed from under `p`, and the newest block still gets a higher slot than `p`. -/
theorem newer_slots_higher_of_delete :
    ∃ (s : Session) (b c : Block), s.Reachable ∧ b ∈ s.memory.stackBlocks ∧ c ∈ s.memory.stackBlocks ∧ b.name = "p" ∧
      c.name = "z" ∧ (s.memory.under b.id).length < 2 ∧ b.slot? = some 2 ∧ c.slot? = some 3 ∧
      b.address < c.address := by
  obtain ⟨s, reach, b, below, c, above, p, z, older, at_two, at_three, fewer, left⟩ : ∃ s : Session, s.Reachable ∧
      ∃ b ∈ s.memory.stackBlocks, ∃ c ∈ s.memory.stackBlocks, b.name = "p" ∧ c.name = "z" ∧ b.id < c.id ∧
        b.slot? = some 2 ∧ c.slot? = some 3 ∧ (s.memory.under b.id).length < 2 ∧ 2 < (s.memory.under c.id).length :=
    ⟨(Action.execute
      "int main() \x7b\n  int a;\n  int x;\n  int* p = &x;\n  int y;\n  delete p;\n  int z;\n".toList).after {},
      .script _ .fresh, by decide +kernel⟩
  obtain ⟨_, _, _, higher⟩ := newer_slots_higher reach
  exact ⟨s, b, c, reach, below, above, p, z, fewer, at_two, at_three,
    ((higher b below c above older 2 3 at_two at_three).2 left).2⟩

/-- A live block may lose what was under it, and then it can happen that the next block gets the same slot. -/
theorem slot_taken_twice :
    ¬ ∀ s : Session, s.Reachable → ∀ b ∈ s.memory.stackBlocks, ∀ c ∈ s.memory.stackBlocks, b ≠ c →
      b.slot? ≠ c.slot? ∧ b.address ≠ c.address := by
  intro distinct
  obtain ⟨s, reach, b, there, c, also, different, same⟩ : ∃ s : Session, s.Reachable ∧
      ∃ b ∈ s.memory.stackBlocks, ∃ c ∈ s.memory.stackBlocks, b ≠ c ∧ b.address = c.address :=
    ⟨(Action.execute "int main() \x7b\n  int x;\n  int* p = &x;\n  delete p;\n  int y;\n".toList).after {},
      .script _ .fresh, by decide +kernel⟩
  exact (distinct s reach b there c also different).2 same

end MemoryTrace
