import MemoryTrace.Proofs.Memory.Registry

namespace MemoryTrace.Memory

variable {m next : Memory}

/-- Leaving a scope takes a live block off the stack. -/
theorem stackBlocks_lt {b : Block} (shrinks : m.Shrinks next) (member : b ∈ m.blocks)
    (live : b.live) (stack : b.isStack) (dead : ¬ next.HasLive b.id) :
    next.stackBlocks.length < m.stackBlocks.length := by
  have counted (m : Memory) : m.stackBlocks.length = m.blocks.countP fun c => c.isStack && c.live := by
    rw [stackBlocks, liveBlocks, List.filter_filter, List.countP_eq_length_filter]
  obtain ⟨f, blocks, keeps⟩ := shrinks
  have fewer (c : Block) (still : (f c).isStack && (f c).live) : c.isStack && c.live := by
    rw [Bool.and_eq_true] at still ⊢
    exact ⟨(keeps c).isStack ▸ still.1, (keeps c).live still.2⟩
  have gone : (f b).live = false := by
    refine Bool.eq_false_iff.mpr fun alive =>
      dead ⟨f b, blocks ▸ List.mem_map_of_mem member, (keeps b).id, alive⟩
  obtain ⟨before, after, split⟩ := List.append_of_mem member
  have left := List.countP_mono_left (l := before) (p := fun c => (f c).isStack && (f c).live)
    fun c _ => fewer c
  have right := List.countP_mono_left (l := after) (p := fun c => (f c).isStack && (f c).live)
    fun c _ => fewer c
  rw [counted, counted, blocks, List.countP_map, split]
  simp only [Function.comp_def, List.countP_append, List.countP_cons, gone, live, stack]
  simp
  omega

theorem not_hasLive_leaveScope (m : Memory) (b : Block) : ¬ (m.leaveScope b).memory.HasLive b.id := fun alive =>
  not_hasLive_free m b "goes out of scope" (alive.of_shrinks (Shrinks.leaveScope m b))

theorem perform_endScope {exit : ScopeExit} (left : m.endScope? = some exit) :
    (m.perform .endScope).2 = exit.memory := by
  simp only [perform, left]

theorem stackBlocks_endScope_lt {exit : ScopeExit} (left : m.endScope? = some exit) :
    exit.memory.stackBlocks.length < m.stackBlocks.length := by
  obtain ⟨b, member, live, stack, _, rfl⟩ := endScope?_eq_some left
  have popped := Shrinks.free m b "goes out of scope"
  have rest := Shrinks.leaveScope m b
  exact stackBlocks_lt (popped.trans rest) member live stack (m.not_hasLive_leaveScope b)

/-- However deep the stack, it can be unwound. -/
theorem exists_unwound (m : Memory) : ∃ n, (m.run (.replicate n .endScope)).endScope? = none := by
  induction depth : m.stackBlocks.length using Nat.strongRecOn generalizing m with
  | ind length ih =>
    cases left : m.endScope? with
    | none => exact ⟨0, left⟩
    | some exit =>
      obtain ⟨n, unwound⟩ := ih _ (depth ▸ stackBlocks_endScope_lt left) exit.memory rfl
      refine ⟨n + 1, ?_⟩
      rwa [List.replicate_succ, run_cons, perform_endScope left]

theorem run_append (m : Memory) (first second : List Operation) :
    m.run (first ++ second) = (m.run first).run second :=
  List.foldl_append

/-- Where there is no scope left, leaving it again changes nothing. -/
theorem run_endScope_of_unwound (unwound : m.endScope? = none) (n : Nat) : m.run (.replicate n .endScope) = m := by
  induction n with
  | zero => rfl
  | succ n ih =>
    have stays : (m.perform .endScope).2 = m := by simp only [perform, unwound]
    rw [List.replicate_succ, run_cons, stays, ih]

/-- An unwound memory is the same however often it takes to see that it is. -/
theorem unwound_unique {n k : Nat} (first : (m.run (.replicate n .endScope)).endScope? = none)
    (second : (m.run (.replicate k .endScope)).endScope? = none) :
    m.run (.replicate n .endScope) = m.run (.replicate k .endScope) := by
  have both (a b : Nat) (unwound : (m.run (.replicate a .endScope)).endScope? = none) :
      m.run (.replicate (a + b) .endScope) = m.run (.replicate a .endScope) := by
    rw [← List.replicate_append_replicate, run_append, run_endScope_of_unwound unwound]
  rw [← both n k first, Nat.add_comm, both k n second]

/-- `next` is `m` with another log. -/
def Alike (m next : Memory) : Prop := ∃ log, next = { m with events := log }

namespace Alike

theorem refl (m : Memory) : m.Alike m := ⟨m.events, rfl⟩

theorem symm (alike : m.Alike next) : next.Alike m := by
  obtain ⟨log, rfl⟩ := alike
  exact ⟨m.events, rfl⟩

theorem trans {middle : Memory} (first : m.Alike middle) (second : middle.Alike next) : m.Alike next := by
  obtain ⟨_, rfl⟩ := first
  obtain ⟨log, rfl⟩ := second
  exact ⟨log, rfl⟩

theorem reportLeaks (m : Memory) : m.Alike m.reportLeaks := by
  unfold Memory.reportLeaks
  induction m.leakedBlocks generalizing m with
  | nil => exact refl m
  | cons b rest ih => exact trans ⟨_, rfl⟩ (ih _)

variable (alike : m.Alike next)

include alike

theorem update (id : BlockId) (f : Block → Block) : (m.update id f).Alike (next.update id f) := by
  obtain ⟨log, rfl⟩ := alike
  exact ⟨log, rfl⟩

theorem free (b : Block) (reason : String) : (m.free b reason).Alike (next.free b reason) := by
  obtain ⟨log, rfl⟩ := alike
  exact ⟨_, rfl⟩

theorem release (id : BlockId) : (m.release id).Alike (next.release id) := by
  obtain ⟨log, rfl⟩ := alike
  have same : ({ m with events := log } : Memory).block? id = m.block? id := rfl
  unfold Memory.release
  rw [same]
  split
  · exact ⟨log, rfl⟩
  · split
    · dsimp only
      split <;> exact ⟨_, rfl⟩
    · exact ⟨log, rfl⟩

theorem deallocate_ok {id : BlockId} {freed : Memory} (done : m.deallocate id = .ok freed) :
    ∃ other, next.deallocate id = .ok other ∧ freed.Alike other := by
  obtain ⟨b, found, live, rfl⟩ := deallocate_eq_ok.mp done
  have same : next.block? id = some b := by
    obtain ⟨log, rfl⟩ := alike
    exact found
  refine ⟨_, deallocate_eq_ok.mpr ⟨b, same, live, rfl⟩, ?_⟩
  split
  · exact alike.release id
  · exact alike.free b _

theorem leaveScope (b : Block) : (m.leaveScope b).memory.Alike (next.leaveScope b).memory := by
  have popped := alike.free b "goes out of scope"
  unfold Memory.leaveScope
  dsimp only
  split
  · rename_i id _ _
    cases done : (m.free b "goes out of scope").deallocate id with
    | ok freed =>
      obtain ⟨other, done, freed⟩ := popped.deallocate_ok done
      rw [done]
      exact freed.update b.id _
    | error e =>
      cases other : (next.free b "goes out of scope").deallocate id with
      | ok freed =>
        obtain ⟨_, accepted, _⟩ := popped.symm.deallocate_ok other
        rw [accepted] at done
        contradiction
      | error _ => exact popped.update b.id _
  · exact (popped.release _).update b.id _
  · exact popped

/-- Whether a scope is left does not depend on the log. -/
theorem endScope?_eq_none : m.endScope? = none ↔ next.endScope? = none := by
  obtain ⟨log, rfl⟩ := alike
  have same : ({ m with events := log } : Memory).stackBlocks = m.stackBlocks := rfl
  simp only [endScope?, Option.map_eq_none_iff, same]

/-- The end of a scope does the same whatever the log. -/
theorem endScope : (m.perform .endScope).2.Alike (next.perform .endScope).2 := by
  have same : next.stackBlocks = m.stackBlocks := by
    obtain ⟨log, rfl⟩ := alike
    rfl
  unfold perform endScope?
  dsimp only
  rw [same]
  cases m.stackBlocks.getLast? with
  | none => exact alike
  | some b => exact alike.leaveScope b

/-- What comes out of unwinding the stack does not depend on the log. -/
theorem unwind (n : Nat) : (m.run (.replicate n .endScope)).Alike (next.run (.replicate n .endScope)) := by
  induction n generalizing m next with
  | zero => exact alike
  | succ n ih =>
    rw [List.replicate_succ, run_cons, run_cons]
    exact ih alike.endScope

end Alike

end MemoryTrace.Memory
