import MemoryTrace.Proofs.Session.Local
import MemoryTrace.Proofs.Session.Renumbered

namespace MemoryTrace

open Script

/-- The session without its notes, which no statement reads. -/
def Session.silent (s : Session) : Session := { s with notes := [] }

/-- Sessions that are the same without their notes differ in those. -/
theorem Session.eq_of_silent {s t : Session} (same : t.silent = s.silent) : t = { s with notes := t.notes } := by
  cases s
  cases t
  simpa [silent] using same

namespace Action

variable {α : Type} {a : Action α} {s t : Session}

/-- What an action comes to: its result and the session it leaves. Notes do not count. -/
def outcome (a : Action α) (s : Session) : EStateM.Result Failure Session α :=
  match a s with
  | .ok x t => .ok x t.silent
  | .error e t => .error e t.silent

/-- A local action stays on its line, and remembers no error. -/
theorem Local.line_eq (inner : Local True a) (s : Session) :
    (a.after s).line = s.line ∧ (a.after s).lastError = s.lastError := by
  obtain ⟨memory, bindings, notes, same⟩ := inner.after_eq s
  rw [same]
  exact ⟨rfl, rfl⟩

/-- Statements that work on memory and names alone do not care for notes made before. Of what may differ between
sessions that resemble each other, only the notes are left. -/
theorem Local.outcome_eq (inner : Local True a) (blind : Blind True a) (same : t.silent = s.silent) :
    a.outcome t = a.outcome s := by
  have alike : s.Resembles True t := ⟨s.memory.events, s.line, s.lastError, t.notes, fun _ => rfl, Session.eq_of_silent same⟩
  have agreed := blind s t alike
  have first := inner.line_eq s
  have second := inner.line_eq t
  have line : t.line = s.line := by rw [Session.eq_of_silent same]
  have lastError : t.lastError = s.lastError := by rw [Session.eq_of_silent same]
  have silent {u v : Session} (alike : u.Resembles True v) (before : u.line = s.line ∧ u.lastError = s.lastError)
      (after : v.line = t.line ∧ v.lastError = t.lastError) : v.silent = u.silent := by
    rw [alike.eq, after.1, after.2, line, lastError, ← before.1, ← before.2]
    rfl
  unfold outcome after at *
  rw [line] at agreed
  generalize a s = left at *
  generalize a t = right at *
  cases agreed with
  | ok x alike _ _ => exact congrArg (EStateM.Result.ok x) (silent alike first second)
  | script cause alike => exact congrArg (EStateM.Result.error _) (silent alike first second)
  | crash c alike => exact congrArg (EStateM.Result.error _) (silent alike first second)

theorem outcome_congr {b : Action α} (same : a s = b t) : a.outcome s = b.outcome t := by
  rw [outcome, outcome, same]

/-- A line comes to what its statement comes to, and remembers the error. -/
theorem outcome_executeLine {first second : Text} (same : (statement first).outcome s = (statement second).outcome t) :
    (executeLine first).outcome s = (executeLine second).outcome t := by
  have remembers (u : Session) (e : ScriptError) :
      ({ u with lastError := some e }.note (.failed e)).silent = { u.silent with lastError := some e } := rfl
  unfold outcome at same ⊢
  unfold executeLine
  cases left : statement first s with
  | ok x u =>
    cases right : statement second t with
    | ok y v => simpa only [left, right] using same
    | error f v => simp [left, right] at same
  | error e u =>
    cases right : statement second t with
    | ok y v => simp [left, right] at same
    | error f v =>
      rw [left, right] at same
      obtain ⟨rfl, silent⟩ := EStateM.Result.error.inj same
      cases e with
      | script e =>
        refine congrArg (EStateM.Result.error _) ?_
        rw [remembers, remembers, silent]
      | crash c => exact congrArg (EStateM.Result.error _) silent

/-- A statement is noted and then does what it was taken for. -/
theorem statement_of_classify {line : Text} {kind : StatementKind} (taken : s.classify line = .ok kind) :
    statement line s = perform line kind (s.note (.running kind line.toName)) := by
  unfold statement
  rw [get_bind, taken]
  rfl

/-- Two lines that are taken for the same action come to the same. -/
theorem outcome_statement {line : Text} {kind : StatementKind} (taken : s.classify line = .ok kind) :
    (statement line).outcome s = (perform line kind).outcome (s.note (.running kind line.toName)) :=
  outcome_congr (statement_of_classify taken)

end Action

end MemoryTrace
