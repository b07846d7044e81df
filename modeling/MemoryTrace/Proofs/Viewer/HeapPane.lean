import MemoryTrace.Proofs.Memory.Statistics
import MemoryTrace.Viewer.Pane.Heap

namespace MemoryTrace

namespace Viewer

variable {m : Memory} {b : Block}

/-- The detector asks for any live block that points to this one, and the pane for the names of them all. -/
theorem isReferenced_eq (m : Memory) (id : BlockId) : m.isReferenced id = !(ownerNames m id).isEmpty := by
  rw [ownerNames, List.isEmpty_map, Memory.liveBlocks, List.filter_filter, Memory.isReferenced, Bool.eq_iff_iff]
  simp [and_comm]

/-- A line below a raw heap block: it flags a leak that nothing owns, or names the owners of a block that is no leak. -/
inductive RawLine (m : Memory) (b : Block) : Line → Prop
  | leak (leaked : b ∈ m.leakedBlocks) (orphan : ownerNames m b.id = []) : RawLine m b (leakLine b)
  | owners (kept : b ∉ m.leakedBlocks) (owned : ownerNames m b.id ≠ []) : RawLine m b (ownersLine (ownerNames m b.id))

theorem leakLine_ne_ownersLine (b : Block) (names : List String) : leakLine b ≠ ownersLine names := by
  intro same
  have spans : 3 = 1 := congrArg (·.spans.length) same
  contradiction

/-- A raw heap block has leaked if and only if the pane finds no live pointer that it could name as an owner of it. -/
theorem leakedBlocks_eq_ownerless (m : Memory) :
    m.leakedBlocks = m.rawHeap.filter fun b => (ownerNames m b.id).isEmpty := by
  rw [m.leakedBlocks_eq_filter]
  refine List.filter_congr fun b _ => ?_
  rw [isReferenced_eq, Bool.not_not]

/-- A block is among the leaks by its number where it is by itself. -/
theorem leaks_contains (sound : m.Sound) (member : b ∈ m.blocks) : m.leaks.contains b.id ↔ b ∈ m.leakedBlocks := by
  rw [List.contains_iff_mem]
  refine ⟨fun told => ?_, List.mem_map_of_mem⟩
  obtain ⟨c, leaked, same⟩ := List.mem_map.mp told
  have found := sound.block?_of_mem (List.mem_of_mem_filter leaked)
  rw [same, sound.block?_of_mem member] at found
  exact Option.some.inj found ▸ leaked

/-- A raw heap block has one such line. -/
theorem ownerLines_of_raw (sound : m.Sound) (raw : b ∈ m.rawHeap) :
    ∃ line, ownerLines m b = [line] ∧ RawLine m b line := by
  have member : b ∈ m.blocks := List.mem_of_mem_filter (List.mem_of_mem_filter raw)
  have agree : b ∈ m.leakedBlocks ↔ ownerNames m b.id = [] := by
    rw [leakedBlocks_eq_ownerless, List.mem_filter, List.isEmpty_iff, and_iff_right raw]
  have told := leaks_contains sound member
  unfold ownerLines
  by_cases leaked : b ∈ m.leakedBlocks
  · rw [if_pos (told.mpr leaked)]
    exact ⟨_, rfl, .leak leaked (agree.mp leaked)⟩
  · have owned := mt agree.mpr leaked
    rw [if_neg (mt told.mp leaked)]
    split
    · contradiction
    · exact ⟨_, rfl, .owners leaked owned⟩

/-- The pane has each live heap block once, as a line of its own with at most one line below it. -/
theorem heapLines_eq (m : Memory) (width : Nat) : ∃ order : List Block, order.Perm m.heapBlocks ∧
    (order ≠ [] → heapLines m width =
      ((order.map (allocationLines m width)).intersperse [{ spans := [] }]).flatten) := by
  refine ⟨_, List.mergeSort_perm m.heapBlocks fun a b => a.address ≤ b.address, fun filled => ?_⟩
  unfold heapLines
  split
  · contradiction
  · rfl

/-- The statistics are consistent, and so is what the heap pane tells of leaks: a raw heap block counts as leaked if and
only if the pane finds no owner of it, and its one line says so, or names the owners. -/
theorem stats_consistent (reach : m.Reachable) :
    m.Consistent ∧ (m.leakedBlocks = m.rawHeap.filter fun b => (ownerNames m b.id).isEmpty) ∧
      (∀ b names, leakLine b ≠ ownersLine names) ∧
      ∀ width, ∃ order : List Block, order.Perm m.heapBlocks ∧
        (order ≠ [] → heapLines m width =
          ((order.map (allocationLines m width)).intersperse [{ spans := [] }]).flatten) ∧
        ∀ b ∈ m.rawHeap, ∃ line, RawLine m b line ∧
          allocationLines m width b = [allocationLine width (m.leaks.contains b.id) b, line] := by
  refine ⟨reach.consistent, leakedBlocks_eq_ownerless m, leakLine_ne_ownersLine, fun width => ?_⟩
  obtain ⟨order, same, lines⟩ := heapLines_eq m width
  refine ⟨order, same, lines, fun b raw => ?_⟩
  obtain ⟨line, only, tells⟩ := ownerLines_of_raw reach.sound raw
  exact ⟨line, tells, congrArg _ only⟩

/-- A block that a pointer still reaches and one that is lost, each as large as a word can tell. -/
theorem stats_consistent_of_two_raw_blocks :
    ∃ (m : Memory) (b c : Block), m.Reachable ∧ m.Consistent ∧ m.rawHeap = [b, c] ∧ m.leakedBlocks = [c] ∧
      m.stats.heapBytes = largestWord ∧ m.stats.leakedBytes = largestWord ∧ m.stats.liveBlocks = 4 ∧
      allocationLines m 40 b = [allocationLine 40 false b, ownersLine ["p"]] ∧
      allocationLines m 40 c = [allocationLine 40 true c, leakLine c] := by
  let m := (Memory.withCapacity 8).run [.createPointer "p" .raw none, .allocate "*p" largestWord .raw,
    .assignPointer 1 (some 2), .allocate "lost" largestWord .raw, .allocate "u" 8 .unique]
  have reach : m.Reachable := Memory.Reachable.run (.fresh 8) _
  obtain ⟨b, c, raw, lost, ⟨owned, kept⟩, orphan, leaked⟩ : ∃ b c, m.rawHeap = [b, c] ∧ m.leakedBlocks = [c] ∧
      (ownerNames m b.id = ["p"] ∧ m.leaks.contains b.id = false) ∧
      (ownerNames m c.id = [] ∧ m.leaks.contains c.id = true) := ⟨_, _, rfl, by decide +kernel⟩
  obtain ⟨consistent, _, _, shown⟩ := stats_consistent reach
  obtain ⟨_, _, _, lines⟩ := shown 40
  obtain ⟨line, tells, below⟩ := lines b (by simp [raw])
  obtain ⟨other, flags, under⟩ := lines c (by simp [raw])
  refine ⟨m, b, c, reach, consistent, raw, lost, by decide +kernel, by decide +kernel, by decide +kernel, ?_, ?_⟩
  · cases tells with
    | leak _ alone => exact absurd (owned.symm.trans alone) (List.cons_ne_nil _ _)
    | owners => rwa [owned, kept] at below
  · cases flags with
    | leak => rwa [leaked] at under
    | owners _ reached => exact absurd orphan reached

end Viewer

end MemoryTrace
