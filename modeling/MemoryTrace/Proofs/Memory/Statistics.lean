import MemoryTrace.Proofs.Memory.Draining
import MemoryTrace.Proofs.Memory.HeapRanges

namespace MemoryTrace

/-- Saturating at every block comes to the same as saturating in the end. -/
theorem foldl_saturate (blocks : List Block) (bytes : Nat) :
    blocks.foldl (fun bytes b => saturate (bytes + b.size)) (saturate bytes) =
      saturate (bytes + total Block.size blocks) := by
  induction blocks generalizing bytes with
  | nil => rfl
  | cons b rest ih => rw [List.foldl_cons, saturate_saturate_add, ih, total_cons, Nat.add_assoc]

theorem total_le_of_sublist {α : Type} (measure : α → Nat) {part whole : List α} (sublist : part.Sublist whole) :
    total measure part ≤ total measure whole := by
  induction sublist with
  | slnil => exact Nat.le_refl _
  | cons x _ ih => exact Nat.le_trans ih (Nat.le_add_left ..)
  | cons_cons x _ ih => exact Nat.add_le_add_left ih _

/-- A pass over some blocks, after others that have so many bytes on the stack and on the heap. The exact sums are
parameters, since a saturated sum cannot tell what it was before. -/
theorem MemoryStats.foldl_count (blocks : List Block) (s : MemoryStats) (stack heap : Nat) :
    blocks.foldl count { s with stackBytes := saturate stack, heapBytes := saturate heap } =
      { s with
        liveBlocks := s.liveBlocks + blocks.length
        stackBytes := saturate (stack + total Block.size (blocks.filter (·.isStack)))
        heapBytes := saturate (heap + total Block.size (blocks.filter (!·.isStack))) } := by
  induction blocks generalizing s stack heap with
  | nil => rfl
  | cons b rest ih =>
    rw [List.foldl_cons, List.length_cons, Nat.add_comm rest.length, ← Nat.add_assoc]
    have counted := ih { s with liveBlocks := s.liveBlocks + 1 }
    cases kind : b.isStack with
    | true =>
      rw [List.filter_cons_of_pos kind, List.filter_cons_of_neg (by simp [kind]), total_cons, ← Nat.add_assoc,
        ← counted, count, if_pos kind]
      simp only [saturate_saturate_add]
    | false =>
      rw [List.filter_cons_of_neg (by simp [kind]), List.filter_cons_of_pos (by simp [kind]), total_cons,
        ← Nat.add_assoc, ← counted, count, if_neg (by simp [kind])]
      simp only [saturate_saturate_add]

namespace Memory

variable {m : Memory}

/-- Looking the leaks up by their numbers finds them again. -/
theorem Sound.filterMap_leaks (sound : m.Sound) : m.leaks.filterMap m.block? = m.leakedBlocks := by
  have found (b : Block) (leaked : b ∈ m.leakedBlocks) : (m.block? ∘ Block.id) b = some b :=
    sound.block?_of_mem (List.mem_of_mem_filter leaked)
  rw [leaks, List.filterMap_map]
  exact (List.filterMap_congr found).trans List.filterMap_some

/-- What the passes count together. -/
theorem Sound.stats_eq (sound : m.Sound) :
    m.stats =
      { totalBlocks := m.blocks.length
        liveBlocks := m.liveBlocks.length
        stackBytes := saturate (total Block.size m.stackBlocks)
        heapBytes := saturate (total Block.size m.heapBlocks)
        leakedBlocks := m.leakedBlocks.length
        leakedBytes := saturate (total Block.size m.leakedBlocks) } := by
  have leaked := foldl_saturate m.leakedBlocks 0
  have counted := MemoryStats.foldl_count m.liveBlocks
    { totalBlocks := m.blocks.length, leakedBlocks := m.leaks.length } 0 0
  have zero : saturate 0 = 0 := rfl
  rw [zero, Nat.zero_add] at leaked
  rw [zero, Nat.zero_add, Nat.zero_add, Nat.zero_add] at counted
  rw [stats, sound.filterMap_leaks, counted, leaked, leaks, List.length_map]
  rfl

theorem rawHeap_sublist (m : Memory) : m.rawHeap.Sublist m.heapBlocks :=
  List.monotone_filter_right _ fun b raw => by simp [Block.isStack, of_decide_eq_true raw]

theorem leakedBlocks_sublist (m : Memory) : m.leakedBlocks.Sublist m.heapBlocks :=
  m.leakedBlocks_eq_filter ▸ List.filter_sublist.trans m.rawHeap_sublist

/-- The live blocks are those on the stack and those on the heap. -/
theorem WellFormed.length_liveBlocks (formed : m.WellFormed) :
    m.liveBlocks.length = m.stackDepth + m.heapBlocks.length :=
  formed.depth ▸ List.length_eq_length_filter_add _

/-- The statistics are exact, but for bytes that no word can tell. -/
structure Consistent (m : Memory) : Prop where
  stackBytes : m.stats.stackBytes = min (total Block.size m.stackBlocks) largestWord
  heapBytes : m.stats.heapBytes = min (total Block.size m.heapBlocks) largestWord
  leakedBytes : m.stats.leakedBytes = min (total Block.size m.leakedBlocks) largestWord
  liveBlocks : m.stats.liveBlocks = m.stackDepth + m.heapBlocks.length
  leakedBlocks : m.stats.leakedBlocks = m.leaks.length
  leakedBlocks_le : m.stats.leakedBlocks ≤ m.stats.liveBlocks
  leakedBytes_le : m.stats.leakedBytes ≤ m.stats.heapBytes

/-- The statistics are counted block by block, with bytes that saturate at every block, and come to the exact numbers
and sums as far as a word can tell them. -/
theorem Reachable.consistent (reach : m.Reachable) : m.Consistent := by
  have live := reach.wellFormed.length_liveBlocks
  have leaked := m.leakedBlocks_sublist
  have few : m.leakedBlocks.length ≤ m.liveBlocks.length :=
    Nat.le_trans leaked.length_le (live ▸ Nat.le_add_left ..)
  have stats := reach.sound.stats_eq
  constructor <;> rw [stats]
  · rfl
  · rfl
  · rfl
  · exact live
  · exact (List.length_map _).symm
  · exact few
  · exact saturate_mono (total_le_of_sublist Block.size leaked)

end Memory

end MemoryTrace
