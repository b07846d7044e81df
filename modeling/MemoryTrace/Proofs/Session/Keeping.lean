import MemoryTrace.Proofs.Session.Aside

namespace MemoryTrace.Action

open Script

variable {α β : Type} {I : Session → Prop}

/-- Reading the session leaves it to what comes next. -/
theorem after_read (f : Session → Action α) (s : Session) : (get >>= f).after s = (f s).after s := rfl

/-- Whether it succeeds or fails, the action leaves a session that has the property, if it found one. -/
def Keeps (I : Session → Prop) (a : Action α) : Prop := ∀ s, I s → I (a.after s)

namespace Keeps

protected theorem pure (x : α) : Keeps I (Pure.pure x) := fun _ holds => holds

theorem fail (cause : Cause) : Keeps I (Action.fail cause : Action α) := fun _ holds => holds

theorem crash (c : Crash) : Keeps I (throw (.crash c) : Action α) := fun _ holds => holds

protected theorem modify {f : Session → Session} (kept : ∀ s, I s → I (f s)) : Keeps I (modify f) := kept

/-- An action may go by the session that it keeps. -/
theorem read {f : Session → Action α} (each : ∀ s, I s → Keeps I (f s)) : Keeps I (get >>= f) :=
  fun s holds => each s holds s holds

/-- If every part of an action keeps a property of the session, the whole action does, even if it fails halfway. -/
protected theorem bind {a : Action α} {f : α → Action β} (first : Keeps I a) (rest : ∀ x, Keeps I (f x)) :
    Keeps I (a >>= f) := by
  intro s holds
  have through := first s holds
  rw [after_bind]
  cases ran : a s with
  | ok x t =>
    rw [after_of_ok ran] at through
    exact rest x t through
  | error e t => rwa [after_of_error ran] at through

theorem discard {a : Action α} (keeps : Keeps I a) : Keeps I (discard a : Action PUnit) := by
  intro s holds
  rw [after_discard]
  exact keeps s holds

/-- What each action of a list keeps, the list keeps. -/
protected theorem forM {list : List α} {f : α → Action PUnit} (each : ∀ x, Keeps I (f x)) : Keeps I (list.forM f) := by
  induction list with
  | nil => exact .pure _
  | cons x rest ih => exact (each x).bind fun _ => ih

/-- An operation keeps what it keeps where memory accepts it. -/
theorem attempt {f : Memory → Except MemoryError Memory}
    (kept : ∀ s next, I s → f s.memory = .ok next → I { s with memory := next }) : Keeps I (attempt f) := by
  intro s holds
  unfold Action.attempt
  rw [after_read]
  cases done : f s.memory with
  | ok next => exact kept s next holds done
  | error e => exact holds

theorem create {f : Memory → BlockId × Memory} (kept : ∀ s, I s → I { s with memory := (f s.memory).2 }) :
    Keeps I (create f) := kept

end Keeps

/-- To ask changes nothing. -/
theorem Asks.keeps {crashes : Prop} {a : Action α} (asks : Asks crashes a) : Keeps I a := by
  induction asks with
  | pure x => exact .pure x
  | @fail _ cause => exact .fail cause
  | crash _ c => exact .crash c
  | read _ _ ih => exact Keeps.read fun s _ => ih s
  | bind _ _ first rest => exact Keeps.bind first rest

namespace Keeps

theorem lookup (name : Text) : Keeps I (lookup name) := (Asks.lookup name : Asks True _).keeps

theorem arraySize (name : String) (unit count : Nat) : Keeps I (arraySize name unit count) :=
  (Asks.arraySize name unit count : Asks True _).keeps

theorem declaration? (text : Text) : Keeps I (declaration? text) :=
  (Asks.declaration? (.inl trivial) : Asks True _).keeps

theorem pointerSource? (text : Text) : Keeps I (pointerSource? text) := (Asks.pointerSource? text : Asks True _).keeps

theorem membersOf (className : String) (text : Text) : Keeps I (membersOf className text) :=
  (Asks.membersOf className (.inl trivial) : Asks True _).keeps

end Keeps

end MemoryTrace.Action
