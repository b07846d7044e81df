import MemoryTrace.Proofs.Memory.Registry
import MemoryTrace.Proofs.Session.Changes
import MemoryTrace.Proofs.Session.Keeping
import MemoryTrace.Proofs.Session.Stepwise

namespace MemoryTrace

open Script

/-- What every memory operation keeps. -/
def Memory.Kept (P : Memory → Prop) : Prop := ∀ m operation, P m → P (m.perform operation).2

namespace Session

variable {base : BlockId} {s t : Session}

theorem Change.keeps {P : Memory → Prop} (kept : Memory.Kept P) (change : s.Change base t) (before : P s.memory) :
    P t.memory := by
  cases change with
  | perform operation _ _ memory _ => exact memory ▸ kept s.memory operation before
  | declare operation _ made _ =>
    have after := kept s.memory operation before
    rwa [made] at after
  | aside memory _ => exact memory ▸ before

/-- What one change keeps, any number of changes keep. -/
theorem Changes.keeps {I : Session → Prop} (kept : ∀ s t, s.Change base t → I s → I t) (changes : s.Changes base t)
    (before : I s) : I t := by
  induction changes with
  | refl => exact before
  | tail _ last ih => exact kept _ _ last ih

/-- A stepwise run keeps what operations keep, and its observer only sees memories that have it. -/
theorem runSteps_keeps {P : Memory → Prop} (kept : Memory.Kept P) {α : Type} {Q : α → Prop}
    {observe : Step → α → ForInStep α} (lines : List CodeLine)
    (observed : ∀ step seen, P step.memory → Q seen → Q (observe step seen).value) (seen : α)
    (s : Session) (known : Q seen) (before : P s.memory) :
    P (runSteps observe lines seen s).session.memory ∧ Q (runSteps observe lines seen s).seen := by
  have keeps (s t : Session) (change : s.Change 0 t) : P s.memory → P t.memory := change.keeps kept
  refine ⟨(Changes.runSteps observe lines seen (Nat.zero_le _)).keeps keeps before, ?_⟩
  induction lines generalizing seen s with
  | nil => exact known
  | cons line rest ih =>
    have told := observed { line, memory := s.memory } seen before known
    have ran := (Action.Leads.executeCodeLine line (Nat.zero_le _)).1.keeps keeps before
    unfold runSteps
    cases went : observe { line, memory := s.memory } seen with
    | done last =>
      rw [went] at told
      exact told
    | yield more =>
      rw [went] at told
      cases result : Action.executeCodeLine line s with
      | ok _ next =>
        rw [Action.after_of_ok result] at ran
        exact ih more next told ran
      | error e next => exact told

/-- The sessions that any use of the interpreter leads to, lines that fail included. -/
inductive Reachable : Session → Prop
  | fresh : Reachable {}
  | line {s : Session} (line : Text) : Reachable s → Reachable ((Action.executeLine line).after s)
  | script {s : Session} (script : Text) : Reachable s → Reachable ((Action.execute script).after s)
  | stepwise {s : Session} {α : Type} (script : Text) (observe : Step → α → ForInStep α) (start : α) :
      Reachable s → Reachable (s.executeStepwise script observe start).session
  | reset {s : Session} : Reachable s → Reachable s.reset

/-- A reachable session has what a fresh one has and changes keep. -/
theorem Reachable.holds {I : Session → Prop} (fresh : I {}) (kept : ∀ s t, s.Change 0 t → I s → I t)
    (reach : s.Reachable) : I s := by
  induction reach with
  | fresh => exact fresh
  | line line _ ih => exact (Action.Leads.executeLine line (Nat.zero_le _)).1.keeps kept ih
  | script script _ ih => exact (Action.Leads.execute script (Nat.zero_le _)).1.keeps kept ih
  | stepwise script observe start _ ih => exact (Changes.runSteps observe _ start (Nat.zero_le _)).keeps kept ih
  | reset => exact fresh

/-- What single lines keep. A run does no more than run its lines, tick before each of them and, in the end, unwind the
stack and report leaks. -/
theorem Reachable.holds_of_lines {I : Session → Prop} (fresh : I {})
    (around : ∀ s, I s → ∀ operation ∈ [Operation.tick, .endScope, .reportLeaks], ∀ line lastError notes,
      I { s with memory := (s.memory.perform operation).2, line, lastError, notes })
    (lines : ∀ line, Action.Keeps I (Action.executeLine line)) (reach : s.Reachable) : I s := by
  have codeLine (line : CodeLine) : Action.Keeps I (Action.executeCodeLine line) :=
    .bind (.modify fun s holds => around s holds .tick (by simp) line.number s.lastError s.notes) fun _ =>
      lines line.code
  have finish (s : Session) (holds : I s) : I s.finish := around s holds .reportLeaks (by simp) s.line none _
  have unwound (count : Nat) (s : Session) (holds : I s) : I (popBlocks count s) := by
    induction count generalizing s with
    | zero => exact holds
    | succ count ih =>
      unfold popBlocks
      split
      · rename_i next popped
        obtain ⟨_, notes, rfl⟩ := popBlock_eq_some popped
        exact ih _ (around s holds .endScope (by simp) s.line s.lastError notes)
      · exact holds
  have runs {α : Type} (observe : Step → α → ForInStep α) (code : List CodeLine) (seen : α) (s : Session) (holds : I s) :
      I (runSteps observe code seen s).session := by
    induction code generalizing seen s with
    | nil => exact finish _ (unwound _ s holds)
    | cons line rest ih =>
      have ran := codeLine line s holds
      unfold runSteps
      split
      · exact holds
      · split
        · rename_i result
          rw [Action.after_of_ok result] at ran
          exact ih _ _ ran
        · rename_i result
          rwa [Action.after_of_error result] at ran
  induction reach with
  | fresh | reset => exact fresh
  | line line _ ih => exact lines line _ ih
  | script script _ ih => exact (Action.Keeps.forM codeLine).bind (fun _ => .modify finish) _ ih
  | stepwise script observe start _ ih => exact runs observe _ start _ ih

theorem Reachable.memory_reachable (reach : s.Reachable) : s.memory.Reachable := by
  have kept : Memory.Kept Memory.Reachable := fun _ operation before => before.perform operation
  exact reach.holds (I := fun s => s.memory.Reachable) (Memory.Reach.fresh 100) fun _ _ change => change.keeps kept

end Session

end MemoryTrace
