import MemoryTrace.Proofs.Memory.Copies
import MemoryTrace.Proofs.Memory.Popping
import MemoryTrace.Proofs.Memory.WellFormed

namespace MemoryTrace.Memory

variable {m low : Memory} {ids : List BlockId}

/-- The live blocks that only the program itself could have freed. -/
def rawHeap (m : Memory) : List Block := m.liveBlocks.filter (·.storage = .heap)

/-- The stack is empty, and what is left of the raw heap has leaked. -/
structure Drained (m : Memory) : Prop where
  stack : m.stackBlocks = []
  depth : m.stackDepth = 0
  plain : ∀ b ∈ m.liveBlocks, b.pointer? = none
  leaks : m.leaks = m.rawHeap.map (·.id)
  ordered : m.leaks.Pairwise (· < ·)

/-- Where no scope can be left, no live block is on the stack. -/
theorem stackBlocks_of_unwound (unwound : m.endScope? = none) : m.stackBlocks = [] :=
  List.getLast?_eq_none_iff.mp (Option.map_eq_none_iff.mp unwound)

/-- Pointers lie on the stack, so an empty stack leaves none. -/
theorem Sound.plain_of_unwound (sound : m.Sound) (unwound : m.endScope? = none) {b : Block} (alive : b ∈ m.liveBlocks) :
    b.pointer? = none := by
  refine sound.plain_of_heap (List.mem_of_mem_filter alive) (Bool.eq_false_iff.mpr fun stack => ?_)
  have there : b ∈ m.stackBlocks := List.mem_filter.mpr ⟨alive, stack⟩
  rw [stackBlocks_of_unwound unwound] at there
  contradiction

/-- A raw heap block has leaked unless a live pointer reaches it. -/
theorem leakedBlocks_eq_filter (m : Memory) : m.leakedBlocks = m.rawHeap.filter fun b => !m.isReferenced b.id := by
  rw [rawHeap, liveBlocks, List.filter_filter, List.filter_filter, leakedBlocks]
  refine List.filter_congr fun b _ => ?_
  rw [Bool.and_comm, Bool.and_comm b.live, Bool.and_assoc]

theorem leakedBlocks_of_plain (plain : ∀ b ∈ m.liveBlocks, b.pointer? = none) : m.leakedBlocks = m.rawHeap := by
  rw [leakedBlocks_eq_filter]
  refine List.filter_eq_self.mpr fun b _ => ?_
  refine Bool.not_eq_true' _ ▸ List.any_eq_false.mpr fun c member held => ?_
  obtain ⟨live, aimed⟩ := (Bool.and_eq_true ..).mp held
  obtain ⟨p, holds, _⟩ := Block.target?_eq_some.mp (of_decide_eq_true aimed)
  rw [plain c (List.mem_filter.mpr ⟨member, live⟩)] at holds
  contradiction

theorem Sound.leaks_ordered (sound : m.Sound) : m.leaks.Pairwise (· < ·) := by
  have numbers : (m.blocks.map (·.id)).Pairwise (· < ·) := sound.numbered ▸ List.pairwise_lt_range'
  exact List.pairwise_map.mpr ((List.pairwise_map.mp numbers).filter _)

/-- Where no scope can be left, the raw heap that is still live has leaked. -/
theorem Reachable.drained (reach : m.Reachable) (unwound : m.endScope? = none) : m.Drained := by
  have empty := stackBlocks_of_unwound unwound
  have plain (b : Block) (alive : b ∈ m.liveBlocks) := reach.sound.plain_of_unwound unwound alive
  refine ⟨empty, ?_, plain, ?_, reach.sound.leaks_ordered⟩
  · rw [reach.wellFormed.depth, empty, List.length_nil]
  · rw [leaks, leakedBlocks_of_plain plain]

/-- Scope exits one after the other until there is no scope left, with the blocks that they pop. -/
inductive Unwinds : Memory → List BlockId → Memory → Prop
  | done {m : Memory} (unwound : m.endScope? = none) : Unwinds m [] m
  | pop {m low : Memory} {exit : ScopeExit} {ids : List BlockId} (left : m.endScope? = some exit)
      (rest : Unwinds exit.memory ids low) : Unwinds m (exit.popped :: ids) low

/-- Every stack can be unwound. -/
theorem exists_unwinds (m : Memory) : ∃ ids low, m.Unwinds ids low := by
  induction depth : m.stackBlocks.length using Nat.strongRecOn generalizing m with
  | ind length ih =>
    cases left : m.endScope? with
    | none => exact ⟨[], m, .done left⟩
    | some exit =>
      obtain ⟨ids, low, rest⟩ := ih _ (depth ▸ stackBlocks_endScope_lt left) exit.memory rfl
      exact ⟨exit.popped :: ids, low, .pop left rest⟩

/-- What is popped is the newest live block on the stack. What stays there was there, and is older. -/
theorem Sound.endScope_newest (sound : m.Sound) {exit : ScopeExit} (left : m.endScope? = some exit) :
    (∃ b ∈ m.stackBlocks, b.id = exit.popped) ∧ (∀ c ∈ m.stackBlocks, c.id ≤ exit.popped) ∧
      ∀ d ∈ exit.memory.stackBlocks, d.id < exit.popped ∧ ∃ c ∈ m.stackBlocks, c.id = d.id := by
  obtain ⟨b, member, live, stack, last, rfl⟩ := endScope?_eq_some left
  have newest := sound.newest_of_last last
  rw [leaveScope_popped]
  refine ⟨⟨b, List.mem_of_getLast? last, rfl⟩, newest, fun d there => ?_⟩
  simp only [stackBlocks, liveBlocks, List.mem_filter] at there
  obtain ⟨⟨still, alive⟩, onStack⟩ := there
  obtain ⟨f, blocks, becomes⟩ := (Shrinks.free m b _).trans (Shrinks.leaveScope m b)
  have was := still
  rw [blocks] at was
  obtain ⟨c, old, rfl⟩ := List.mem_map.mp was
  have before : c ∈ m.stackBlocks := by
    simp only [stackBlocks, liveBlocks, List.mem_filter]
    exact ⟨⟨old, (becomes c).live alive⟩, (becomes c).isStack ▸ onStack⟩
  have other : (f c).id ≠ b.id := fun same => m.not_hasLive_leaveScope b ⟨f c, still, same, alive⟩
  rw [(becomes c).id] at other ⊢
  exact ⟨Nat.lt_of_le_of_ne (newest c before) other, c, before, rfl⟩

namespace Unwinds

theorem unwound (unwinds : m.Unwinds ids low) : low.endScope? = none := by
  induction unwinds with
  | done unwound => exact unwound
  | pop _ _ ih => exact ih

/-- No more blocks are popped than there are live ones on the stack. -/
theorem length_le (unwinds : m.Unwinds ids low) : ids.length ≤ m.stackBlocks.length := by
  induction unwinds with
  | done => exact Nat.zero_le _
  | pop left _ ih => exact Nat.lt_of_le_of_lt ih (stackBlocks_endScope_lt left)

theorem run (unwinds : m.Unwinds ids low) : m.run (.replicate ids.length .endScope) = low := by
  induction unwinds with
  | done => rfl
  | pop left _ ih => rwa [List.length_cons, List.replicate_succ, run_cons, perform_endScope left]

/-- The scope exits answer with the blocks that they pop, and the one after the last with none. -/
theorem replies (unwinds : m.Unwinds ids low) :
    m.replies (.replicate (ids.length + 1) .endScope) = ids.map (.popped ∘ some) ++ [.popped none] := by
  induction unwinds with
  | @done m unwound =>
    change [(m.perform .endScope).1] = _
    simp only [perform, unwound]
    rfl
  | pop left _ ih =>
    rw [List.length_cons, List.replicate_succ, Memory.replies, perform_endScope left, ih]
    simp only [perform, left]
    rfl

theorem mem_stackBlocks (unwinds : m.Unwinds ids low) (sound : m.Sound) :
    ∀ id ∈ ids, ∃ b ∈ m.stackBlocks, b.id = id := by
  induction unwinds with
  | done => nofun
  | pop left _ ih =>
    obtain ⟨popped, _, stays⟩ := sound.endScope_newest left
    refine List.forall_mem_cons.mpr ⟨popped, fun id later => ?_⟩
    obtain ⟨d, there, rfl⟩ := ih (perform_endScope left ▸ sound.perform .endScope) id later
    exact (stays d there).2

/-- Newer blocks are popped before older ones. -/
theorem falling (unwinds : m.Unwinds ids low) (sound : m.Sound) : ids.Pairwise (· > ·) := by
  induction unwinds with
  | done => exact .nil
  | pop left rest ih =>
    have below := perform_endScope left ▸ sound.perform .endScope
    refine .cons (fun id later => ?_) (ih below)
    obtain ⟨d, there, rfl⟩ := rest.mem_stackBlocks below id later
    exact ((sound.endScope_newest left).2.2 d there).1

/-- Each block is popped in its turn, when no live block on the stack is newer. -/
theorem newest (unwinds : m.Unwinds ids low) (sound : m.Sound) {i : Nat} {id : BlockId} (there : ids[i]? = some id) :
    (∃ b ∈ (m.run (.replicate i .endScope)).stackBlocks, b.id = id) ∧
      ∀ c ∈ (m.run (.replicate i .endScope)).stackBlocks, c.id ≤ id := by
  induction unwinds generalizing i with
  | done => contradiction
  | pop left rest ih =>
    cases i with
    | zero =>
      obtain rfl := Option.some.inj there
      obtain ⟨popped, newest, _⟩ := sound.endScope_newest left
      exact ⟨popped, newest⟩
    | succ i =>
      rw [List.replicate_succ, run_cons, perform_endScope left]
      exact ih (perform_endScope left ▸ sound.perform .endScope) there

theorem run_of_le (unwinds : m.Unwinds ids low) {n : Nat} (enough : ids.length ≤ n) :
    m.run (.replicate n .endScope) = low := by
  rw [← Nat.add_sub_cancel' enough, ← List.replicate_append_replicate, run_append, unwinds.run,
    run_endScope_of_unwound unwinds.unwound]

end Unwinds

/-- Scope exits pop these blocks, newest first, and then there is nothing left to pop. -/
structure Drains (m : Memory) (ids : List BlockId) : Prop where
  few : ids.length ≤ m.stackBlocks.length
  falling : ids.Pairwise (· > ·)
  replies : m.replies (.replicate (ids.length + 1) .endScope) = ids.map (.popped ∘ some) ++ [.popped none]
  newest : ∀ i id, ids[i]? = some id → (∃ b ∈ (m.run (.replicate i .endScope)).stackBlocks, b.id = id) ∧
    ∀ c ∈ (m.run (.replicate i .endScope)).stackBlocks, c.id ≤ id
  drained : ∀ n ≥ ids.length, (m.run (.replicate n .endScope)).Drained

/-- Every scope exit pops the newest block that is still live, and where none is left no pointer is left either, so
that all of the raw heap that is still live has leaked. -/
theorem Reachable.drains (reach : m.Reachable) : ∃ ids, m.Drains ids := by
  obtain ⟨ids, low, unwinds⟩ := m.exists_unwinds
  refine ⟨ids, unwinds.length_le, unwinds.falling reach.sound, unwinds.replies,
    fun i id there => unwinds.newest reach.sound there, fun n enough => ?_⟩
  have below := reach.run (.replicate n .endScope)
  exact below.drained ((unwinds.run_of_le enough).symm ▸ unwinds.unwound)

end MemoryTrace.Memory
