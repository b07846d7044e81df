import MemoryTrace.Proofs.Memory.Primitives
import MemoryTrace.Total

namespace MemoryTrace

theorem saturate_mono {a b : Nat} (le : a ≤ b) : saturate a ≤ saturate b := by
  unfold saturate
  omega

theorem saturate_of_le {a : Nat} (fits : a ≤ largestWord) : saturate a = a := Nat.min_eq_left fits

/-- Saturating on the way makes no difference to a sum that saturates in the end. -/
theorem saturate_saturate_add (a b : Nat) : saturate (saturate a + b) = saturate (a + b) := by
  unfold saturate
  omega

namespace Block

/-- The room that a block takes on the heap, where nothing saturates: what it holds, and something even if that is
nothing, rounded up to a multiple of eight. -/
def room (b : Block) : Nat := (max b.size 1 + 7) / 8 * 8

/-- The room of a block holds it, and it holds something. -/
theorem size_le_room (b : Block) : max b.size 1 ≤ b.room := by
  unfold room
  omega

/-- Where the room of a block fits in a word, nothing saturates. -/
theorem heapStep_eq_room {b : Block} (fits : b.room ≤ largestWord) : Memory.heapStep b.size = b.room := by
  unfold room largestWord at fits
  unfold Memory.heapStep room saturate largestWord
  omega

end Block

/-- The blocks lie one behind the other from `cursor` on, each behind the room of the one before it. -/
def Placed : Nat → List Block → Prop
  | _, [] => True
  | cursor, b :: rest => b.address = saturate cursor ∧ Placed (cursor + Memory.heapStep b.size) rest

/-- A block that comes last lies behind the room of all others. -/
theorem placed_concat (cursor : Nat) (blocks : List Block) (b : Block) :
    Placed cursor (blocks ++ [b]) ↔
      Placed cursor blocks ∧ b.address = saturate (cursor + total (fun c => Memory.heapStep c.size) blocks) := by
  induction blocks generalizing cursor with
  | nil => simp [Placed]
  | cons first rest ih => rw [List.cons_append, Placed, Placed, ih, total_cons, and_assoc, Nat.add_assoc]

namespace Placed

variable {cursor : Nat} {blocks : List Block}

theorem map {f : Block → Block} (address : ∀ b, (f b).address = b.address) (size : ∀ b, (f b).size = b.size)
    (placed : Placed cursor blocks) : Placed cursor (blocks.map f) := by
  induction blocks generalizing cursor with
  | nil => trivial
  | cons first rest ih =>
    obtain ⟨here, behind⟩ := placed
    refine ⟨(address first).trans here, ?_⟩
    rw [size]
    exact ih behind

theorem le_address (placed : Placed cursor blocks) {b : Block} (member : b ∈ blocks) : saturate cursor ≤ b.address := by
  induction blocks generalizing cursor with
  | nil => contradiction
  | cons first rest ih =>
    obtain ⟨here, behind⟩ := placed
    rcases List.mem_cons.mp member with rfl | later
    · exact Nat.le_of_eq here.symm
    · exact Nat.le_trans (saturate_mono (Nat.le_add_right ..)) (ih behind later)

/-- Even when the addresses run out, no block lies before an older one. -/
theorem sorted (placed : Placed cursor blocks) : blocks.Pairwise fun a b => a.address ≤ b.address := by
  induction blocks generalizing cursor with
  | nil => exact .nil
  | cons first rest ih =>
    obtain ⟨here, behind⟩ := placed
    refine List.pairwise_cons.mpr ⟨fun b later => ?_, ih behind⟩
    rw [here]
    exact Nat.le_trans (saturate_mono (Nat.le_add_right ..)) (behind.le_address later)

/-- As long as there are addresses, the first block begins at the cursor and the others behind its room. -/
theorem first {b : Block} {rest : List Block} (placed : Placed cursor (b :: rest))
    (fits : cursor + total Block.room (b :: rest) ≤ largestWord) :
    b.address = cursor ∧ Placed (cursor + b.room) rest ∧ cursor + b.room + total Block.room rest ≤ largestWord := by
  rw [total_cons] at fits
  obtain ⟨here, behind⟩ := placed
  rw [saturate_of_le (by omega)] at here
  rw [Block.heapStep_eq_room (by omega)] at behind
  exact ⟨here, behind, by omega⟩

/-- As long as there are addresses, they are multiples of eight. -/
theorem aligned (placed : Placed cursor blocks) (fits : cursor + total Block.room blocks ≤ largestWord)
    (start : 8 ∣ cursor) : ∀ b ∈ blocks, 8 ∣ b.address := by
  induction blocks generalizing cursor with
  | nil => exact fun _ member => nomatch member
  | cons b rest ih =>
    obtain ⟨here, behind, left⟩ := placed.first fits
    have next : 8 ∣ cursor + b.room := Nat.dvd_add start (Nat.dvd_mul_left ..)
    intro c member
    rcases List.mem_cons.mp member with rfl | later
    · rwa [here]
    · exact ih behind left next c later

/-- As long as there are addresses, a block begins behind the room of every older one. -/
theorem apart (placed : Placed cursor blocks) (fits : cursor + total Block.room blocks ≤ largestWord) :
    blocks.Pairwise fun a b => a.address + a.room ≤ b.address := by
  induction blocks generalizing cursor with
  | nil => exact .nil
  | cons b rest ih =>
    obtain ⟨here, behind, left⟩ := placed.first fits
    refine List.pairwise_cons.mpr ⟨fun c later => ?_, ih behind left⟩
    have beyond := behind.le_address later
    rwa [saturate_of_le (by omega), ← here] at beyond

end Placed

namespace Memory

variable {m next : Memory}

/-- Every block that was put on the heap, dead or alive. -/
def onHeap (m : Memory) : List Block := m.blocks.filter fun b => !b.isStack

/-- The blocks on the heap lie one behind the other, and the next one comes behind them all. -/
structure Laid (m : Memory) : Prop where
  placed : Placed heapStart m.onHeap
  cursor : m.nextHeapAddress = saturate (heapStart + total (fun b => heapStep b.size) m.onHeap)

theorem laid_withCapacity (capacity : Nat) : (withCapacity capacity).Laid := ⟨trivial, rfl⟩

/-- A step keeps the heap laid out, whether it puts a block behind the others or changes blocks in place. -/
theorem Effect.laid (effect : m.Effect next) (laid : m.Laid) : next.Laid := by
  cases effect with
  | pushStack name size content pushed =>
    have same : next.onHeap = m.onHeap := by
      rw [onHeap, pushed, Memory.pushStack, List.filter_append]
      exact List.append_nil _
    exact ⟨same ▸ laid.placed, by rw [same, ← laid.cursor, pushed]; rfl⟩
  | pushHeap name size discipline content pushed =>
    have more : next.onHeap = m.onHeap ++ [{ id := m.nextId, name, size, address := m.nextHeapAddress
                                             storage := .heapFor discipline, content }] := by
      rw [onHeap, pushed, Memory.pushHeap, List.filter_append]
      cases discipline <;> rfl
    refine ⟨?_, ?_⟩
    · rw [more, placed_concat]
      exact ⟨laid.placed, laid.cursor⟩
    · have cursor : next.nextHeapAddress = saturate (m.nextHeapAddress + heapStep size) := by rw [pushed]; rfl
      rw [cursor, laid.cursor, saturate_saturate_add, more, total_append, total_cons, total_nil, Nat.add_assoc,
        Nat.add_zero]
  | @inPlace f blocks form _ heap =>
    have stack (b : Block) : (f b).isStack = b.isStack := Block.of_form Block.form_isStack (form b)
    have address (b : Block) : (f b).address = b.address := Block.of_form Block.form_address (form b)
    have size (b : Block) : (f b).size = b.size := Block.of_form Block.form_size (form b)
    have mapped : next.onHeap = m.onHeap.map f := by
      simp only [onHeap, blocks, List.filter_map, Function.comp_def, stack]
    have sum : total (fun b => heapStep b.size) (m.onHeap.map f) = total (fun b => heapStep b.size) m.onHeap := by
      induction m.onHeap with
      | nil => rfl
      | cons b rest ih => rw [List.map_cons, total_cons, total_cons, size, ih]
    exact ⟨mapped ▸ laid.placed.map address size, by rw [heap, laid.cursor, mapped, sum]⟩

/-- After any operations each block on the heap lies where the room of those before it ends. -/
theorem Reachable.laid (reach : m.Reachable) : m.Laid :=
  reach.holds laid_withCapacity fun _ _ _ step => step.effect.laid

/-- What relates every block on the heap with every later one relates the older with the newer. -/
theorem Sound.pairwise_onHeap (sound : m.Sound) {R : Block → Block → Prop} (pairs : m.onHeap.Pairwise R) {b c : Block}
    (first : b ∈ m.onHeap) (second : c ∈ m.onHeap) (older : b.id < c.id) : R b c := by
  have numbers : (m.blocks.map (·.id)).Pairwise (· < ·) := sound.numbered ▸ List.pairwise_lt_range'
  have ordered : m.onHeap.Pairwise fun b c => b.id < c.id := (List.pairwise_map.mp numbers).filter _
  have related : ∀ ⦃x⦄, x ∈ m.onHeap → ∀ ⦃y⦄, y ∈ m.onHeap → x.id < y.id → R x y := by
    refine List.Pairwise.forall_of_forall_of_flip ?_ ?_ ?_
    · exact fun x _ itself => absurd itself (Nat.lt_irrefl _)
    · refine pairs.imp ?_
      exact fun holds _ => holds
    · refine ordered.imp ?_
      exact fun before after => absurd before (Nat.lt_asymm after)
  exact related first second older

/-- No block on the heap lies before an older one, dead or alive. As long as the room of all of them together fits in
the address space, their addresses are multiples of eight, and a block begins where the older ones have ended. -/
theorem heap_ranges_disjoint (reach : m.Reachable) :
    (∀ b ∈ m.onHeap, ∀ c ∈ m.onHeap, b.id < c.id → b.address ≤ c.address) ∧
    (heapStart + total Block.room m.onHeap ≤ largestWord →
      (∀ b ∈ m.onHeap, 8 ∣ b.address) ∧
      ∀ b ∈ m.onHeap, ∀ c ∈ m.onHeap, b.id < c.id →
        b.address < c.address ∧ b.address + max 1 b.size ≤ c.address) := by
  have sound := reach.sound
  have placed := reach.laid.placed
  refine ⟨fun b first c second => sound.pairwise_onHeap placed.sorted first second, fun fits => ?_⟩
  refine ⟨placed.aligned fits (by decide), fun b first c second older => ?_⟩
  have behind := sound.pairwise_onHeap (placed.apart fits) first second older
  have room := b.size_le_room
  omega

/-- An empty block and one of nine bytes, both freed, before one of the largest size that there is still room for. -/
theorem heap_ranges_disjoint_of_nearly_full :
    ∃ (m : Memory) (b c d : Block), m.Reachable ∧ m.onHeap = [b, c, d] ∧ b.size = 0 ∧ c.size = 9 ∧
      d.size = largestWord - 0x1000001F ∧ b.live = false ∧ 8 ∣ c.address ∧ b.address + 1 ≤ c.address ∧
      b.address < d.address ∧ c.address + 9 ≤ d.address := by
  let m := (withCapacity 8).run [.allocate "b" 0 .raw, .createVariable "x" 4, .allocate "c" 9 .shared, .deallocate 1,
    .deallocate 3, .allocate "d" (largestWord - 0x1000001F) .unique]
  have reach : m.Reachable := Reachable.run (.fresh 8) _
  obtain ⟨b, c, d, blocks, empty, nine, large, dead, one, three, four, left⟩ : ∃ b c d, m.onHeap = [b, c, d] ∧
      b.size = 0 ∧ c.size = 9 ∧ d.size = largestWord - 0x1000001F ∧ b.live = false ∧ b.id = 1 ∧ c.id = 3 ∧ d.id = 4 ∧
      heapStart + total Block.room m.onHeap ≤ largestWord :=
    ⟨_, _, _, rfl, rfl, rfl, rfl, rfl, rfl, rfl, rfl, by decide⟩
  obtain ⟨aligned, apart⟩ := (heap_ranges_disjoint reach).2 left
  rw [blocks] at aligned apart
  have first := apart b (by simp) c (by simp) (by rw [one, three]; decide)
  have second := apart c (by simp) d (by simp) (by rw [three, four]; decide)
  rw [empty] at first
  rw [nine] at second
  exact ⟨m, b, c, d, reach, blocks, empty, nine, large, dead, aligned c (by simp), first.2,
    Nat.lt_trans first.1 second.1, second.2⟩

end Memory

end MemoryTrace
