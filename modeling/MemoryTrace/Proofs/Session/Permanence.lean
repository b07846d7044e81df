import MemoryTrace.Proofs.Memory.Changes
import MemoryTrace.Proofs.Memory.Lost
import MemoryTrace.Proofs.Session.Reach
import MemoryTrace.Proofs.Session.Stepwise

namespace MemoryTrace

open Script

namespace Memory

variable {m next : Memory}

theorem pushCopy_onStack (m : Memory) (b : Block) (p : Pointer) (name : String) :
    ∃ c ∈ (m.pushCopy b p name).blocks, c.id = m.nextId ∧ c.isStack := by
  have pushed : ∃ c ∈ (m.pushStack name pointerSize (.pointer p)).blocks, c.id = m.nextId ∧ c.isStack :=
    ⟨_, List.mem_append_right _ (List.mem_singleton_self _), rfl, rfl⟩
  unfold pushCopy
  dsimp only
  split
  · exact pushed
  · rename_i target _
    obtain ⟨c, member, same, stack⟩ := pushed
    obtain ⟨d, there, becomes⟩ := (Changes.countOwners _ target (· + 1)).becomes member
    exact ⟨d, there, becomes.id.trans same, becomes.isStack.trans stack⟩

/-- What is declared lies on the stack. -/
theorem perform_declares {operation : Operation} {name : String} {id : BlockId}
    (declares : operation.declares? = some name) (made : m.perform operation = (.created id, next)) :
    ∃ b ∈ next.blocks, b.id = id ∧ b.isStack := by
  cases operation with
  | createVariable | createPointer | createObject =>
    cases made
    exact ⟨_, List.mem_append_right _ (List.mem_singleton_self _), rfl, rfl⟩
  | copyShared source name =>
    unfold perform at made
    dsimp only at made
    split at made
    · rename_i done copied
      obtain ⟨b, p, _, _, number, copy⟩ := copyShared_eq_ok.mp copied
      cases made
      rw [copy, number]
      exact pushCopy_onStack m b p name
    · cases made
  | _ => contradiction

end Memory

namespace Session

variable {base : BlockId} {s t : Session} {b : Block}

/-- The registry is sound, and names denote blocks on the stack, dead or alive. -/
structure Sound (s : Session) : Prop where
  memory : s.memory.Sound
  named : ∀ name id, s.bindings.get? name = some id → ∃ c ∈ s.memory.blocks, c.id = id ∧ c.isStack

/-- A change keeps the registry sound, and a block that a name denotes does not leave it. -/
theorem Change.sound (change : s.Change base t) (sound : s.Sound) : t.Sound := by
  have kept : Memory.Kept Memory.Sound := fun _ operation sound => sound.perform operation
  have memory := change.keeps kept sound.memory
  have stays {operation : Operation} (goes_on : operation ≠ .reset) {name : String} {id : BlockId}
      (known : s.bindings.get? name = some id) :
      ∃ c ∈ (s.memory.perform operation).2.blocks, c.id = id ∧ c.isStack := by
    obtain ⟨c, member, same, stack⟩ := sound.named name id known
    obtain ⟨d, there, becomes⟩ := (Memory.Changes.perform sound.memory goes_on).becomes member
    exact ⟨d, there, becomes.id.trans same, becomes.isStack.trans stack⟩
  refine ⟨memory, fun name id known => ?_⟩
  cases change with
  | perform operation permitted _ after bindings =>
    rw [bindings] at known
    rw [after]
    exact stays permitted.ne_reset known
  | @declare operation declared declares made bindings =>
    rw [bindings] at known
    by_cases same : name = declared
    · rw [same, Table.get?_set_self] at known
      obtain rfl := Option.some.inj known
      exact Memory.perform_declares declares made
    · rw [Table.get?_set_ne _ _ same] at known
      have after := stays (Operation.ne_reset_of_declares declares) known
      rwa [made] at after
  | aside after bindings =>
    rw [bindings] at known
    rw [after]
    exact sound.named name id known

/-- The registry of a reachable session is sound, and its names denote blocks on the stack. -/
theorem Reachable.sound (reach : s.Reachable) : s.Sound :=
  reach.holds ⟨Memory.sound_withCapacity 100, nofun⟩ fun _ _ => Change.sound

/-- No pointer at hand points to a block that is lost. -/
theorem Reaches.ne {id : BlockId} (reached : s.Reaches base id) (lost : s.memory.Lost base b) : id ≠ b.id := by
  rintro rfl
  obtain ⟨pointer, atHand, aimed⟩ := reached
  obtain ⟨p, holds, aimed⟩ := Option.bind_eq_some_iff.mp aimed
  obtain ⟨c, found, holds⟩ := Option.bind_eq_some_iff.mp holds
  obtain ⟨member, same⟩ := Memory.block?_some found
  refine lost.unreached c member ?_ (Block.target?_eq_some.mpr ⟨p, holds, aimed⟩)
  rcases atHand with fresh | ⟨d, known, live⟩
  · exact .inr (same ▸ fresh)
  · obtain rfl := Option.some.inj (known.symm.trans found)
    exact .inl live

/-- What statements ask for spares a block that is lost. -/
theorem Permits.spares {operation : Operation} (permitted : s.Permits base operation) (sound : s.Sound)
    (lost : s.memory.Lost base b) : operation.Spares b.id := by
  cases operation with
  | deallocate id => exact Reaches.ne permitted lost
  | assignPointer pointer target =>
    rintro rfl
    rcases permitted with fresh | ⟨name, known⟩ | reached
    · exact Nat.not_le_of_gt lost.old fresh
    · obtain ⟨c, member, same, stack⟩ := sound.named name b.id known
      exact lost.ne_of_isStack sound.memory member stack same
    · exact reached.ne lost rfl
  | reset => exact permitted
  | _ => trivial

/-- A lost block stays lost through a change. -/
theorem Change.lost (change : s.Change base t) (sound : s.Sound) (lost : s.memory.Lost base b) :
    t.memory.Lost base b := by
  cases change with
  | perform operation permitted _ after _ =>
    rw [after]
    exact lost.perform sound.memory (permitted.spares sound lost)
  | declare operation declares made _ =>
    have spares : operation.Spares b.id := by
      cases operation with
      | deallocate | assignPointer | reset => contradiction
      | _ => trivial
    have after := lost.perform sound.memory spares
    rwa [made] at after
  | aside after _ => rwa [after]

theorem Changes.lost (changes : s.Changes base t) (sound : s.Sound) (lost : s.memory.Lost base b) :
    t.memory.Lost base b :=
  (changes.keeps (I := fun s => s.Sound ∧ s.memory.Lost base b)
    (fun _ _ change both => ⟨change.sound both.1, change.lost both.1 both.2⟩) ⟨sound, lost⟩).2

/-- The sessions that come after `s` without a reset: after a line, be it alone or within a script, and after a run. -/
inductive Later (s : Session) : Session → Prop
  | here : Later s s
  | line {t : Session} (line : Text) : Later s t → Later s ((Action.executeLine line).after t)
  | lines {t : Session} (script : Text) (count : Nat) :
      Later s t → Later s ((((codeLines script).take count).forM Action.executeCodeLine).after t)
  | script {t : Session} (script : Text) : Later s t → Later s ((Action.execute script).after t)
  | stepwise {t : Session} {α : Type} (script : Text) (observe : Step → α → ForInStep α) (start : α) :
      Later s t → Later s (t.executeStepwise script observe start).session

theorem Later.changes (later : s.Later t) (bound : base ≤ s.memory.nextId) : s.Changes base t := by
  induction later with
  | here => exact .refl
  | line line _ ih => exact ih.trans (Action.Leads.executeLine line (Nat.le_trans bound ih.nextId_le)).1
  | lines script count _ ih =>
    exact ih.trans (Action.Leads.executeCodeLines _ _ (Nat.le_trans bound ih.nextId_le)).1
  | script script _ ih => exact ih.trans (Action.Leads.execute script (Nat.le_trans bound ih.nextId_le)).1
  | stepwise script observe start _ ih =>
    exact ih.trans (Changes.runSteps observe _ start (Nat.le_trans bound ih.nextId_le))

/-- What is lost in the first session is still there in the second, and still lost. -/
theorem Changes.unreferenced (changes : s.Changes s.memory.nextId t) (sound : s.Sound) (member : b ∈ s.memory.blocks)
    (live : b.live) (heap : b.isStack = false) (unreached : s.memory.isReferenced b.id = false) :
    (∃ c ∈ t.memory.blocks, c.live ∧ b.Ages c) ∧ t.memory.isReferenced b.id = false := by
  have lost := changes.lost sound (sound.memory.lost member live heap unreached)
  obtain ⟨c, there, ages⟩ := lost.there
  exact ⟨⟨c, there, ages.live.trans live, ages⟩, lost.isReferenced_eq_false⟩

/-- Leaks stay leaks, since no script gets back a block that it has lost. -/
theorem Changes.leaks_subset (changes : s.Changes s.memory.nextId t) (sound : s.Sound) :
    s.memory.leaks ⊆ t.memory.leaks := by
  intro id leaked
  obtain ⟨b, leaks, rfl⟩ := List.mem_map.mp leaked
  simp only [Memory.leakedBlocks, List.mem_filter, Bool.and_eq_true, decide_eq_true_eq, Bool.not_eq_true'] at leaks
  obtain ⟨member, ⟨live, raw⟩, unreached⟩ := leaks
  have heap : b.isStack = false := by simp [Block.isStack, raw]
  obtain ⟨⟨c, there, alive, ages⟩, still⟩ := changes.unreferenced sound member live heap unreached
  refine List.mem_map.mpr ⟨c, List.mem_filter.mpr ⟨there, ?_⟩, ages.id⟩
  simp [alive, ages.storage, raw, ages.id, still]

/-- A run of a script to its end leaks no less if it unwinds the stack. -/
theorem leaks_execute_subset {script : Text} (sound : s.Sound) (done : Action.execute script s = .ok () t) {α : Type}
    {observe : Step → α → ForInStep α} {start seen : α}
    (watched : watch observe (steps (codeLines script) s) start = .yield seen) :
    t.memory.leaks ⊆ (s.executeStepwise script observe start).session.memory.leaks := by
  unfold executeStepwise
  rw [runSteps_watched watched]
  rw [Action.execute_eq] at done
  have ran := (Action.Leads.executeCodeLines (codeLines script) s (Nat.zero_le _)).1
  cases lines : (codeLines script).forM Action.executeCodeLine s with
  | error e u =>
    rw [lines] at done
    contradiction
  | ok _ u =>
    rw [lines] at done
    rw [Action.after_of_ok lines] at ran
    cases done
    have reported : u.finish.memory.leaks = u.memory.leaks := by
      obtain ⟨log, same⟩ := Memory.Alike.reportLeaks u.memory
      rw [finish, same]
      rfl
    have unwinds : u.Changes u.memory.nextId u.popAll.finish := (Changes.popBlocks _ u).tail (.finish _)
    rw [reported]
    exact unwinds.leaks_subset (ran.keeps (fun _ _ => Change.sound) sound)

end Session

/-- A block on the heap that no live pointer points to is there for good, whatever scripts and lines come later, and
nothing points to it again. Only its age goes on. So what has leaked stays leaked, and a script whose blocks are popped
in the end has leaked at least what it leaks otherwise. -/
theorem leaks_are_permanent {s : Session} (reach : s.Reachable) :
    (∀ t, s.Later t →
      (∀ b ∈ s.memory.blocks, b.live → b.isStack = false → s.memory.isReferenced b.id = false →
        (∃ c ∈ t.memory.blocks, c.live ∧ c = { b with lifetime := c.lifetime }) ∧
          t.memory.isReferenced b.id = false) ∧
      s.memory.leaks ⊆ t.memory.leaks) ∧
    ∀ script t, Action.execute script s = .ok () t →
      ∀ (α : Type) (observe : Step → α → ForInStep α) (start seen : α),
        watch observe (Session.steps (codeLines script) s) start = .yield seen →
        t.memory.leaks ⊆ (s.executeStepwise script observe start).session.memory.leaks := by
  refine ⟨fun t later => ?_, fun script t done α observe start seen watched =>
    Session.leaks_execute_subset reach.sound done watched⟩
  have changes := later.changes (Nat.le_refl _)
  exact ⟨fun b member live heap unreached => changes.unreferenced reach.sound member live heap unreached,
    changes.leaks_subset reach.sound⟩

/-- A pointer that is out of scope still has the number of the only block that it could free. A line that asks for the
pointer does not get the block back, and neither does a script that leaks another one. -/
theorem leaks_are_permanent_of_dead_pointer :
    ∃ s t : Session, s.Reachable ∧ s.Later t ∧ s.memory.leaks = [2] ∧ 2 ∈ t.memory.leaks ∧
      (∃ p ∈ s.memory.blocks, p.target? = some 2) ∧
      (∃ b ∈ s.memory.blocks, b.id = 2 ∧
        (∃ c ∈ t.memory.blocks, c.live ∧ c = { b with lifetime := c.lifetime }) ∧
        t.memory.isReferenced b.id = false) ∧
      ∃ u, Action.execute "int* r = new int;\n\x7d".toList s = .ok () u ∧ u.memory.leaks = [2, 4] ∧
        u.memory.leaks ⊆ (s.executeStepwise "int* r = new int;\n\x7d".toList
          (fun _ lines => .yield (lines + 1)) 0).session.memory.leaks := by
  obtain ⟨s, reach, leaked, aimed, lost, ran, more⟩ : ∃ s : Session, s.Reachable ∧ s.memory.leaks = [2] ∧
      (∃ p ∈ s.memory.blocks, p.target? = some 2) ∧
      (∃ b ∈ s.memory.blocks, b.id = 2 ∧ b.live ∧ b.isStack = false ∧ s.memory.isReferenced b.id = false) ∧
      (Action.execute "int* r = new int;\n\x7d".toList).run' s = some () ∧
      ((Action.execute "int* r = new int;\n\x7d".toList).after s).memory.leaks = [2, 4] :=
    ⟨(Action.execute "int main() \x7b\n  \x7b\n    int* p = new int;\n  \x7d\n".toList).after {}, .script _ .fresh, by
      decide +kernel⟩
  obtain ⟨stays, unwinds⟩ := leaks_are_permanent reach
  have later : s.Later ((Action.executeLine "int* q = p;".toList).after s) := .line _ .here
  obtain ⟨kept, still⟩ := stays _ later
  obtain ⟨b, member, two, live, heap, unreached⟩ := lost
  refine ⟨s, _, reach, later, leaked, still (leaked ▸ List.mem_singleton_self 2), aimed,
    ⟨b, member, two, kept b member live heap unreached⟩, ?_⟩
  have done := Action.eq_ok_of_run' ran
  obtain ⟨seen, watched⟩ := @watch_of_continues Nat (fun _ lines => .yield (lines + 1))
    (fun _ lines => ⟨lines + 1, rfl⟩) (Session.steps (codeLines "int* r = new int;\n\x7d".toList) s) 0
  exact ⟨_, done, more, unwinds _ _ done _ _ 0 seen watched⟩

end MemoryTrace
