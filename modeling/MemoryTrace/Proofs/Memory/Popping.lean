import Mathlib.Data.List.Pairwise
import MemoryTrace.Proofs.Memory.Unwinding

namespace MemoryTrace

/-- The block is a smart pointer to `id`. -/
def Block.Owns (b : Block) (id : BlockId) : Prop :=
  ∃ p, b.pointer? = some p ∧ p.discipline ≠ .raw ∧ p.target = some id

namespace Memory

variable {m : Memory} {b : Block} {id : BlockId}

/-- `b` is the newest live stack block of `m`, and in `next` it has left its scope. -/
structure Pops (m : Memory) (b : Block) (next : Memory) : Prop where
  member : b ∈ m.stackBlocks
  newest : ∀ c ∈ m.stackBlocks, c.id ≤ b.id
  left : next = (m.leaveScope b).memory
  gone : ¬ next.HasLive b.id
  others : ∀ id, m.HasLive id → id ≠ b.id → ¬ b.Owns id → next.HasLive id

/-- Leaving a scope ends no other block than that of the scope and what it owned. -/
theorem HasLive.leaveScope (alive : m.HasLive id) (other : id ≠ b.id) (free : ¬ b.Owns id) :
    (m.leaveScope b).memory.HasLive id := by
  have popped : (m.free b "goes out of scope").HasLive id := alive.free other _
  unfold Memory.leaveScope
  dsimp only
  split
  · rename_i target pointee holds
    have different : some target ≠ some id := fun same => free ⟨_, holds, nofun, same⟩
    split
    · rename_i freed done
      have released : (m.free b "goes out of scope").deallocateIfAny (some target) = .ok freed := done
      exact (popped.deallocateIfAny released different).aim none
    · exact popped.aim none
  · rename_i target pointee holds
    have different : id ≠ target := fun same => free ⟨_, holds, nofun, congrArg some same.symm⟩
    exact (popped.release different).aim none
  · exact popped

/-- The stack is in the order of its numbers, so that its last block is the newest. -/
theorem Sound.newest_of_last (sound : m.Sound) (last : m.stackBlocks.getLast? = some b) :
    ∀ c ∈ m.stackBlocks, c.id ≤ b.id := by
  have numbers : (m.blocks.map (·.id)).Pairwise (· < ·) := sound.numbered ▸ List.pairwise_lt_range'
  have ordered : (m.stackBlocks.map (·.id)).Pairwise (· ≤ ·) :=
    List.pairwise_map.mpr (((List.pairwise_map.mp numbers).filter _).filter _ |>.imp Nat.le_of_lt)
  intro c member
  have below := ordered.rel_getLast (List.mem_map_of_mem member)
  obtain ⟨before, split⟩ := List.getLast?_eq_some_iff.mp last
  simpa only [split, List.map_append, List.map_cons, List.map_nil, List.getLast_append_singleton] using below

/-- The end of a scope takes the newest live block on the stack, or does nothing where there is none. -/
theorem Sound.pops_endScope (sound : m.Sound) :
    (m.stackBlocks = [] ∧ (m.perform .endScope).2 = m) ∨ ∃ b, m.Pops b (m.perform .endScope).2 := by
  cases left : m.endScope? with
  | none =>
    refine .inl ⟨List.getLast?_eq_none_iff.mp (Option.map_eq_none_iff.mp left), ?_⟩
    simp only [Memory.perform, left]
  | some exit =>
    obtain ⟨b, _, _, _, last, rfl⟩ := endScope?_eq_some left
    refine .inr ⟨b, List.mem_of_getLast? last, sound.newest_of_last last, perform_endScope left, ?_, ?_⟩
    · rw [perform_endScope left]
      exact m.not_hasLive_leaveScope b
    · intro id alive other free
      rw [perform_endScope left]
      exact alive.leaveScope other free

end Memory

end MemoryTrace
