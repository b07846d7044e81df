import MemoryTrace.Proofs.Memory.Appending
import MemoryTrace.Proofs.Memory.Draining
import MemoryTrace.Proofs.Session.Reach
import MemoryTrace.Proofs.Session.Stepwise

namespace MemoryTrace

open Script

namespace Session

variable {s t : Session}

/-- A run has ended here. Its stack is drained, and it has reported all of its raw heap: as the answer of memory, as
events and as notes. -/
structure Finished (t : Session) : Prop where
  drained : t.memory.Drained
  reported : ∃ u : Session, t = u.finish ∧ u.memory.endScope? = none ∧
    u.memory.perform .reportLeaks = (.leaked (t.memory.rawHeap.map (·.id)), t.memory) ∧
    t.memory.events = u.memory.events.pushAll (t.memory.rawHeap.map (·.leakEvent t.memory.clock)) ∧
    t.notes = u.notes ++ t.memory.rawHeap.map fun b => u.noteOf (.leaked b.name b.size)

/-- A report changes no block, so that what it has told of is what there is to tell of. -/
theorem Finished.of_unwound (reach : t.memory.Reachable) (unwound : t.memory.endScope? = none) : t.finish.Finished := by
  have drained : t.finish.memory.Drained :=
    (reach.perform .reportLeaks).drained ((Memory.Alike.reportLeaks t.memory).endScope?_eq_none.mp unwound)
  have leaked : t.memory.leakedBlocks = t.finish.memory.rawHeap := by
    rw [Memory.leakedBlocks_of_plain fun b => reach.sound.plain_of_unwound unwound, finish, Memory.reportLeaks_eq]
    rfl
  refine ⟨drained, t, rfl, unwound, ?_, ?_, ?_⟩
  · rw [← leaked]
    rfl
  · rw [← leaked, finish, Memory.reportLeaks_eq]
    rfl
  · rw [← leaked]
    rfl

/-- A run that nobody stops and that gets through has unwound its stack. -/
theorem finished_of_watched (reach : s.memory.Reachable) {script : Text} {α : Type} {observe : Step → α → ForInStep α}
    {start : α} (continues : ∀ step seen, ∃ more, observe step seen = .yield more)
    (done : (s.executeStepwise script observe start).result = .ok ()) :
    (s.executeStepwise script observe start).session.Finished := by
  obtain ⟨last, watched⟩ := watch_of_continues continues (steps (codeLines script) s) start
  have ran := runSteps_watched watched
  rw [executeStepwise] at done ⊢
  have kept : Memory.Kept Memory.Reachable := fun _ operation before => before.perform operation
  cases lines : (codeLines script).forM Action.executeCodeLine s with
  | error e t =>
    rw [ran, lines] at done
    contradiction
  | ok _ t =>
    have after := (Action.Leads.executeCodeLines (codeLines script) s (Nat.zero_le _)).1.keeps
      (fun _ _ change => change.keeps kept) reach
    rw [Action.after_of_ok lines] at after
    obtain ⟨notes, popped⟩ := popBlocks_eq t.memory.stackBlocks.length t
    rw [ran, lines]
    refine Finished.of_unwound ?_ (popBlocks_unwound (Nat.le_refl _))
    rw [popAll, popped]
    exact after.run _

end Session

/-- Draining the stack ends, newest block first, and then the live raw heap is what has leaked. A stepwise run that is
not stopped and gets through does so, and reports it. -/
theorem stack_drains :
    (∀ m : Memory, m.Reachable → ∃ ids, m.Drains ids) ∧
      ∀ (s : Session) (script : Text) (α : Type) (observe : Step → α → ForInStep α) (start : α), s.Reachable →
        (∀ step seen, ∃ more, observe step seen = .yield more) →
        (s.executeStepwise script observe start).result = .ok () →
        (s.executeStepwise script observe start).session.Finished :=
  ⟨fun _ reach => reach.drains, fun _ _ _ _ _ reach continues done =>
    Session.finished_of_watched reach.memory_reachable continues done⟩

/-- An owner that leaves its scope frees the variable below it, and only one block is popped. A script that drops its
only pointer to a block reports the block. -/
theorem stack_drains_of_owned_variable :
    ∃ m : Memory, m.Reachable ∧ m.stackBlocks.length = 2 ∧ (∃ ids, m.Drains ids) ∧
      m.replies (.replicate 2 .endScope) = [.popped (some 2), .popped none] ∧ (m.perform .endScope).2.leaks = [3] ∧
      ∃ script : Text, ∃ stepped : Stepped Nat,
        ({} : Session).executeStepwise script (fun _ lines => .yield (lines + 1)) 0 = stepped ∧
        stepped.result = .ok () ∧ stepped.session.memory.leaks = [2] ∧ stepped.session.Finished := by
  let m := (Memory.withCapacity 8).run [.createVariable "x" 4, .createPointer "p" .unique none,
    .assignPointer 2 (some 1), .allocate "h" 8 .raw]
  have reach : m.Reachable := Memory.Reachable.run (.fresh 8) _
  let script := "int main() \x7b\n  int* p = new int;".toList
  let observe (_ : Step) (lines : Nat) : ForInStep Nat := .yield (lines + 1)
  have done : (({} : Session).executeStepwise script observe 0).result = .ok () := by decide +kernel
  obtain ⟨drains, finished⟩ := stack_drains
  exact ⟨m, reach, by decide +kernel, drains m reach, by decide +kernel, by decide +kernel, script, _, rfl, done,
    by decide +kernel, finished {} script Nat observe 0 .fresh (fun _ lines => ⟨lines + 1, rfl⟩) done⟩

end MemoryTrace
