import MemoryTrace.Proofs.Recording.Limit
import MemoryTrace.Viewer.State

namespace MemoryTrace

namespace History

/-- What pushes and moves make of an empty history. -/
inductive Reachable : History → Prop
  | fresh (limit : Nat) : Reachable { limit }
  | pushed {h next : History} (shot : Snapshot) : Reachable h → h.push shot = .ok next → Reachable next
  | forward {h next : History} : Reachable h → h.stepForward = .ok next → Reachable next
  | backward {h next : History} : Reachable h → h.stepBackward = .ok next → Reachable next
  | rewound {h : History} : Reachable h → Reachable h.rewind
  | ended {h : History} : Reachable h → Reachable h.jumpToEnd

variable {h next : History}

theorem position_push {shot : Snapshot} (pushed : h.push shot = .ok next) : next.position = h.position := by
  unfold push at pushed
  dsimp only at pushed
  split at pushed
  · rw [← Except.ok.inj pushed]
  · contradiction

/-- The history with its cursor elsewhere. -/
def moveTo (h : History) (position : Nat) : History := { h with position }

@[simp] theorem position_moveTo (h : History) (position : Nat) : (h.moveTo position).position = position := rfl

@[simp] theorem snapshots_moveTo (h : History) (position : Nat) : (h.moveTo position).snapshots = h.snapshots := rfl

@[simp] theorem moveTo_self (h : History) : h.moveTo h.position = h := rfl

@[simp] theorem moveTo_moveTo (h : History) (first second : Nat) :
    (h.moveTo first).moveTo second = h.moveTo second := rfl

/-- The cursor is at the end where no snapshot follows. -/
theorem isAtEnd_iff : h.isAtEnd ↔ h.snapshots.length ≤ h.position + 1 := decide_eq_true_iff

theorem stepForward_of_isAtEnd (last : h.isAtEnd) : h.stepForward = .error .atEnd := if_pos last

theorem stepForward_of_not_isAtEnd (further : ¬ h.isAtEnd) : h.stepForward = .ok (h.moveTo (h.position + 1)) :=
  if_neg further

/-- A step backward stays at the start if it is taken there. -/
theorem stepBackward_clamped (h : History) : h.stepBackward.toOption.getD h = h.moveTo (h.position - 1) := by
  unfold stepBackward
  split
  · rename_i first
    rw [first, Nat.zero_sub, ← first]
    rfl
  · rfl

section Moves

variable (inside : h.position ≤ h.snapshots.length - 1)

include inside

/-- A step forward stays at the end if it is taken there. -/
theorem stepForward_clamped :
    h.stepForward.toOption.getD h = h.moveTo (min (h.position + 1) (h.snapshots.length - 1)) := by
  by_cases last : h.isAtEnd
  · have stays : min (h.position + 1) (h.snapshots.length - 1) = h.position := by
      have bound := isAtEnd_iff.mp last
      omega
    rw [stepForward_of_isAtEnd last, stays]
    rfl
  · have moves : min (h.position + 1) (h.snapshots.length - 1) = h.position + 1 := by
      have bound := isAtEnd_iff.not.mp last
      omega
    rw [stepForward_of_not_isAtEnd last, moves]
    rfl

/-- As many steps forward are taken as there are snapshots for, and they are counted. -/
theorem stepForwardUpTo_clamped (count : Nat) :
    h.stepForwardUpTo count =
      (min count (h.snapshots.length - 1 - h.position),
        h.moveTo (min (h.position + count) (h.snapshots.length - 1))) := by
  induction count generalizing h with
  | zero =>
    rw [Nat.zero_min, Nat.add_zero, Nat.min_eq_left inside]
    rfl
  | succ count ih =>
    unfold stepForwardUpTo
    by_cases last : h.isAtEnd
    · have bound := isAtEnd_iff.mp last
      have stays : min (h.position + (count + 1)) (h.snapshots.length - 1) = h.position := by omega
      have none_left : min (count + 1) (h.snapshots.length - 1 - h.position) = 0 := by omega
      rw [stepForward_of_isAtEnd last, stays, none_left, moveTo_self]
    · have bound := isAtEnd_iff.not.mp last
      have later := ih (h := h.moveTo (h.position + 1)) (by simp only [position_moveTo, snapshots_moveTo]; omega)
      simp only [position_moveTo, snapshots_moveTo, moveTo_moveTo] at later
      have taken : min count (h.snapshots.length - 1 - (h.position + 1)) + 1 =
          min (count + 1) (h.snapshots.length - 1 - h.position) := by omega
      rw [stepForward_of_not_isAtEnd last]
      dsimp only
      rw [later, taken, Nat.add_right_comm, Nat.add_assoc]

end Moves

/-- An empty history has its cursor where the first snapshot will be. -/
theorem Reachable.position_le (reach : h.Reachable) : h.position ≤ h.snapshots.length - 1 := by
  induction reach with
  | fresh => exact Nat.zero_le _
  | pushed shot _ pushed ih =>
    rw [position_push pushed, snapshots_push pushed, List.length_append]
    exact Nat.le_trans ih (Nat.sub_le_sub_right (Nat.le_add_right ..) 1)
  | @forward h next _ stepped ih =>
    have moved := stepForward_clamped ih
    rw [stepped] at moved
    obtain rfl : next = _ := moved
    exact Nat.min_le_right ..
  | @backward h next _ stepped ih =>
    have moved := stepBackward_clamped h
    rw [stepped] at moved
    obtain rfl : next = _ := moved
    exact Nat.le_trans (Nat.sub_le ..) ih
  | rewound => exact Nat.zero_le _
  | ended => exact le_rfl

/-- Once there are snapshots the cursor is on one of them. -/
theorem Reachable.position_lt (reach : h.Reachable) (recorded : h.snapshots ≠ []) :
    h.position < h.snapshots.length :=
  Nat.lt_of_le_pred (List.length_pos_iff.mpr recorded) reach.position_le

/-- Ending a recording pushes one snapshot at most. -/
theorem Reachable.close (reach : h.Reachable) (error : Option ScriptError) (truncated : Bool) (session : Session) :
    (h.close error truncated session).history.Reachable := by
  unfold History.close
  split
  · rename_i pushed
    exact reach.pushed _ pushed
  · exact reach

end History

theorem observeStep_reachable (step : Step) (seen : History × Bool) (reach : seen.1.Reachable) :
    (observeStep step seen).value.1.Reachable := by
  unfold observeStep
  split
  · rename_i pushed
    exact reach.pushed _ pushed
  · exact reach

/-- The history of a recording is reachable, with its cursor where it was put. -/
theorem Session.record_reachable {s : Session} {script : Text} {limit : Nat} {recording : Recording}
    (recorded : s.record script limit = .ok recording) : recording.history.Reachable := by
  have seen := (runSteps_keeps (P := fun _ => True) (Q := fun seen => seen.1.Reachable) (fun _ _ _ => trivial)
    (Script.codeLines script) (fun step seen _ => observeStep_reachable step seen) ({ limit }, false) s (.fresh limit)
    trivial).2
  rw [record_eq, executeStepwise] at recorded
  dsimp only at recorded
  split at recorded
  · exact Except.ok.inj recorded ▸ seen.close ..
  · exact Except.ok.inj recorded ▸ seen.close ..
  · contradiction

end MemoryTrace
