import MemoryTrace.Proofs.Session.Failures
import MemoryTrace.Proofs.Session.Permanence

namespace MemoryTrace

open Script

/-- What stands in front of the initialiser in a line about smart pointers, or the whole line if there is none. -/
def smartPlace (line : Text) : Text :=
  match (splitAssignment? line).filter (!·.compound) with
  | some a => a.target
  | none => trimStatement line

/-- Taken for a statement of this kind, the line deletes or assigns, and it declares nothing. -/
def OnlyModifies (line : Text) : StatementKind → Prop
  | .delete => True
  | .declareWithNew | .assignment => readDeclaration line = .error .unreadable
  | .smartPointer =>
    startsWithSmartType (stripQualifiers (smartPlace line)) = false ∧
      leadingName (stripQualifiers (smartPlace line)) ≠ "auto".toList
  | _ => False

namespace Action.FailsOnly

variable {s : Session} {line : Text}

/-- An assignment that is no declaration fails early, or by freeing the pointer itself. -/
theorem assignment (undeclared : readDeclaration line = .error .unreadable) (sound : s.memory.Sound) :
    FailsOnly (assignment line) s fun e t => s.Early e t ∨ ∃ id, s.SelfFreed id e t := by
  unfold Action.assignment Action.declaration?
  rw [undeclared]
  refine (FailsOnly.pure _).bind fun declared t ran => ?_
  obtain ⟨rfl, rfl⟩ := pure_eq_ok.mp ran
  split
  · contradiction
  · exact assign _ _ _ sound
  · exact .pure _

theorem smartPointer (not_smart : startsWithSmartType (stripQualifiers (smartPlace line)) = false)
    (not_auto : leadingName (stripQualifiers (smartPlace line)) ≠ "auto".toList) (sound : s.memory.Sound) :
    FailsOnly (smartPointer line) s fun e t => s.Early e t ∨ ∃ id, s.SelfFreed id e t := by
  unfold Action.smartPointer
  unfold smartPlace at not_smart not_auto
  cases split : (splitAssignment? line).filter (!·.compound) with
  | none =>
    rw [split] at not_smart not_auto
    dsimp only at not_smart not_auto ⊢
    rw [if_neg (Bool.eq_false_iff.mp not_smart), if_neg not_auto]
    exact .modify _
  | some a =>
    rw [split] at not_smart not_auto
    dsimp only at not_smart not_auto ⊢
    rw [if_neg (Bool.eq_false_iff.mp not_smart), if_neg not_auto]
    exact assign _ _ _ sound

theorem perform {kind : StatementKind} (modifies : OnlyModifies line kind) (sound : s.memory.Sound) :
    FailsOnly (perform line kind) s fun e t => s.Early e t ∨ ∃ id, s.SelfFreed id e t := by
  cases kind with
  | delete => exact delete line sound
  | declareWithNew | assignment => exact assignment modifies sound
  | smartPointer => exact smartPointer modifies.1 modifies.2 sound
  | _ => exact modifies.elim

end Action.FailsOnly

/-- A `delete` or an assignment that fails has changed nothing, but for the error that is remembered and what is
noted. Or else a pointer that is no shared one was its own target: it was freed as that, and then it could not be
aimed elsewhere. Only a note comes before the statement itself. -/
theorem failed_modification_changes_nothing {s t : Session} (reach : s.Reachable) {line : Text} {kind : StatementKind}
    (taken : s.classify line = .ok kind) (modifies : OnlyModifies line kind) {e : Failure}
    (failed : Action.executeLine line s = .error e t) :
    (∃ lastError notes, t = { s with lastError, notes }) ∨ ∃ pointer, s.SelfFreed pointer e t := by
  obtain ⟨u, lastError, notes, ran, rfl⟩ := Action.executeLine_eq_error failed
  unfold Action.statement at ran
  rw [Action.get_bind, taken] at ran
  rcases Action.FailsOnly.perform (s := s.note (.running kind line.toName)) modifies reach.sound.memory e u ran with
    ⟨_, rfl⟩ | ⟨pointer, freed⟩
  · exact .inl ⟨lastError, notes, rfl⟩
  · exact .inr ⟨pointer, freed.aimed, freed.unshared, freed.refused, freed.gone⟩

/-- A null pointer cannot be deleted, and nothing happens. -/
theorem failed_modification_changes_nothing_of_null :
    ∃ (s t : Session) (e : Failure), s.Reachable ∧ s.classify "delete p;".toList = .ok .delete ∧
      Action.executeLine "delete p;".toList s = .error e t ∧ ∃ lastError notes, t = { s with lastError, notes } := by
  obtain ⟨s, reach, taken, selfless, fails⟩ : ∃ s : Session, s.Reachable ∧
      s.classify "delete p;".toList = .ok .delete ∧ (∀ b ∈ s.memory.blocks, b.target? ≠ some b.id) ∧
      ((Action.executeLine "delete p;".toList).failure? s).isSome :=
    ⟨(Action.execute "int main() \x7b\n  int* p;\n".toList).after {}, .script _ .fresh, by decide +kernel⟩
  obtain ⟨e, failed⟩ := Option.isSome_iff_exists.mp fails
  have ran := Action.eq_error_of_failure? failed
  rcases failed_modification_changes_nothing reach taken trivial ran with unchanged | ⟨pointer, freed⟩
  · exact ⟨s, _, e, reach, taken, ran, unchanged⟩
  · exact absurd selfless freed.not_selfless

/-- The exception is real: a pointer that points to itself is gone after a `delete` that failed. -/
theorem failed_delete_frees_itself :
    ¬ ∀ (s t : Session) (line : Text) (kind : StatementKind) (e : Failure), s.Reachable → s.inMain →
      s.classify line = .ok kind → OnlyModifies line kind → Action.executeLine line s = .error e t →
      t.memory = s.memory ∧ t.bindings = s.bindings ∧ t.classes = s.classes := by
  intro unchanged
  obtain ⟨s, reach, inMain, taken, fails, changed⟩ : ∃ s : Session, s.Reachable ∧ s.inMain ∧
      s.classify "delete p;".toList = .ok .delete ∧
      ((Action.executeLine "delete p;".toList).failure? s).isSome ∧
      ((Action.executeLine "delete p;".toList).after s).memory ≠ s.memory :=
    ⟨(Action.execute "int main() \x7b\n  void* p = &p;\n".toList).after {}, .script _ .fresh, by decide +kernel⟩
  obtain ⟨e, failed⟩ := Option.isSome_iff_exists.mp fails
  exact changed (unchanged s _ _ _ e reach inMain taken trivial (Action.eq_error_of_failure? failed)).1

end MemoryTrace
