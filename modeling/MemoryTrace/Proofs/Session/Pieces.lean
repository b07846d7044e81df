import MemoryTrace.Proofs.Session.Renumbered

namespace MemoryTrace

open Script

/-- The same failure, as many lines later. -/
def Failure.later (lines : Nat) : Failure → Failure
  | .script e => .script { e with line := e.line + lines }
  | .crash c => .crash c

namespace Action

variable {s t : Session}

/-- The second run has come to the same as the first, where all of its lines are so many lines later. -/
inductive Delayed (lines : Nat) : EStateM.Result Failure Session Unit → EStateM.Result Failure Session Unit → Prop
  | ok {s t : Session} (alike : s.Alike t) : Delayed lines (.ok () s) (.ok () t)
  | error {s t : Session} (e : Failure) (alike : s.Alike t) : Delayed lines (.error e s) (.error (e.later lines) t)

/-- The same code further down in a script does the same. What is carried from one call to the next is what is carried
from one line to the next. -/
theorem delayed_codes (lines : Nat) (code : List (Nat × Text)) (alike : s.Alike t) :
    Delayed lines (code.forM executeCode s)
      ((code.map fun line => (line.1 + lines, line.2)).forM executeCode t) := by
  have renumbered := renumbered_codes (· + lines) code (Session.alike_iff.mp alike)
  generalize code.forM executeCode s = first at renumbered ⊢
  generalize List.forM _ executeCode t = second at renumbered ⊢
  cases renumbered with
  | ok alike => exact .ok (Session.alike_iff.mpr alike)
  | error e alike =>
    have same : e.renumber (· + lines) = e.later lines := by cases e <;> rfl
    rw [same]
    exact .error e (Session.alike_iff.mpr alike)

end Action

/-- Two scripts run one after the other come to the same as both of them run as one. If the first fails, so does the
joined run, there and then, and the sessions are the same. If it gets through, what is reported at its end and how the
lines are numbered makes no difference to the second: it gets through as well, or it fails for the same reason, as many
lines later as the first script and the line end behind it take. -/
theorem pieces_run_like_whole (s : Session) (a b : Text) :
    match Action.execute a s with
    | .error e t => Action.execute (a ++ '\n' :: b) s = .error e t
    | .ok _ t => Action.Delayed (a.count '\n' + 1) (Action.execute b t) (Action.execute (a ++ '\n' :: b) s) := by
  rw [Action.execute_codes a, Action.execute_codes (a ++ '\n' :: b), codes_join, Session.forM_append_eq]
  cases (codes a).forM Action.executeCode s with
  | error e t => rfl
  | ok _ t =>
    have delayed := Action.delayed_codes (a.count '\n' + 1) (codes b) (Session.Alike.finish t).symm
    dsimp only
    rw [Action.execute_codes b]
    generalize (codes b).forM Action.executeCode t.finish = split at delayed ⊢
    generalize List.forM _ Action.executeCode t = joined at delayed ⊢
    cases delayed with
    | @ok u v alike => exact .ok ((Session.Alike.finish u).symm.trans (alike.trans (.finish v)))
    | error e alike => exact .error e alike

end MemoryTrace
