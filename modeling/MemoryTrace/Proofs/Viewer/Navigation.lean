import Mathlib.Tactic.IntervalCases
import MemoryTrace.Proofs.Recording.Cursor
import MemoryTrace.Proofs.Viewer.Watching

namespace MemoryTrace.Viewer

/-- The keys that move through a recording or play it. -/
inductive Key.Moves : Key → Prop
  | right : Moves .right
  | left : Moves .left
  | enter : Moves .enter
  | backspace : Moves .backspace
  | space : Moves (.char ' ')
  | digit {k : Nat} : 1 ≤ k → k ≤ 9 → Moves (.char k.digitChar)

theorem exists_digit {c : Char} (low : '1' ≤ c) (high : c ≤ '9') : ∃ k, 1 ≤ k ∧ k ≤ 9 ∧ c = k.digitChar := by
  have low : 49 ≤ c.toNat := low
  have high : c.toNat ≤ 57 := high
  have same : Char.ofNat c.toNat = c := Char.ofNat_toNat c
  refine ⟨c.toNat - 48, by omega, by omega, same.symm.trans ?_⟩
  generalize c.toNat = code at low high
  interval_cases code <;> rfl

variable {v : Viewer}

/-- A viewer comes to another position in its history, and plays from there or does not. -/
structure MovesTo (v w : Viewer) (position : Nat) (playing : Bool) : Prop where
  history : w.history = v.history.moveTo position
  playing : w.playing = playing

/-- Where each key takes a viewer on one of `count` snapshots. The first has position 0, and nothing is before it. A
space that follows the last one too soon is a repetition of it. -/
structure Navigates (v : Viewer) (count : Nat) : Prop where
  right : ∀ rested, v.MovesTo (v.press .right rested) (min (v.history.position + 1) (count - 1)) false
  left : ∀ rested, v.MovesTo (v.press .left rested) (v.history.position - 1) false
  digit : ∀ k rested, 1 ≤ k → k ≤ 9 → ∃ taken,
    v.history.position + taken = min (v.history.position + k) (count - 1) ∧
      v.MovesTo (v.press (.char k.digitChar) rested) (v.history.position + taken) false ∧
      (v.press (.char k.digitChar) rested).status = s!"Stepped forward {taken} step(s)"
  enter : ∀ rested, v.MovesTo (v.press .enter rested) (count - 1) false
  backspace : ∀ rested, v.MovesTo (v.press .backspace rested) 0 false
  space : v.MovesTo (v.press (.char ' ') true)
    (if v.playing = false ∧ v.history.position = count - 1 then 0 else v.history.position) (!v.playing)
  repeated : v.MovesTo (v.press (.char ' ') false) v.history.position v.playing
  other : ∀ key rested, ¬ key.Moves → v.MovesTo (v.press key rested) v.history.position v.playing

/-- A move that is refused leaves the cursor where it was, and stops playing. -/
theorem movesTo_tryMove {next : Except HistoryError History} {position : Nat}
    (moved : next.toOption.getD v.history = v.history.moveTo position) (done refused : String) :
    v.MovesTo (v.tryMove next done refused) position false := by
  cases next with
  | ok history => exact ⟨moved, rfl⟩
  | error e => exact ⟨moved, rfl⟩

theorem press_digit {k : Nat} (positive : 1 ≤ k) (single : k ≤ 9) (v : Viewer) (rested : Bool) :
    v.press (.char k.digitChar) rested = v.stepForwardBy k := by
  interval_cases k <;> rfl

/-- The space bar starts over where playing has come to the end. -/
theorem movesTo_togglePlaying (inside : v.history.position < v.history.snapshots.length) :
    v.MovesTo v.togglePlaying
      (if v.playing = false ∧ v.history.position = v.history.snapshots.length - 1 then 0 else v.history.position)
      (!v.playing) := by
  have at_end : v.history.isAtEnd ↔ v.history.position = v.history.snapshots.length - 1 := by
    rw [History.isAtEnd_iff]
    omega
  unfold togglePlaying
  by_cases plays : v.playing
  · rw [if_pos plays, plays, if_neg fun both => nomatch both.1]
    exact ⟨rfl, rfl⟩
  · have stopped : v.playing = false := Bool.eq_false_of_not_eq_true plays
    rw [if_neg plays, stopped]
    by_cases last : v.history.isAtEnd
    · rw [if_pos last, if_pos ⟨rfl, at_end.mp last⟩]
      exact ⟨rfl, rfl⟩
    · rw [if_neg last, if_neg fun both => last (at_end.mpr both.2)]
      exact ⟨rfl, rfl⟩

theorem movesTo_scrollBy (v : Viewer) (list : ListScroll → ListScroll) (source : SourceScroll → SourceScroll) :
    v.MovesTo (v.scrollBy list source) v.history.position v.playing := by
  unfold scrollBy
  split <;> exact ⟨rfl, rfl⟩

theorem movesTo_other {key : Key} (still : ¬ key.Moves) (v : Viewer) (rested : Bool) :
    v.MovesTo (v.press key rested) v.history.position v.playing := by
  cases key with
  | left => exact absurd .left still
  | right => exact absurd .right still
  | enter => exact absurd .enter still
  | backspace => exact absurd .backspace still
  | up | down => exact movesTo_scrollBy ..
  | tab | backTab | escape | other => exact ⟨rfl, rfl⟩
  | char c =>
    have no_space : c ≠ ' ' := fun space => still (space ▸ .space)
    have no_digit : ¬ ('1' ≤ c ∧ c ≤ '9') := by
      rintro ⟨low, high⟩
      obtain ⟨k, positive, single, rfl⟩ := exists_digit low high
      exact still (.digit positive single)
    unfold press
    dsimp only
    rw [if_neg no_space, if_neg no_digit]
    split <;> exact ⟨rfl, rfl⟩

/-- One key press. It takes the cursor to a snapshot of the history and never past its ends, and changes nothing else
in the history. -/
theorem navigates (inside : v.history.position < v.history.snapshots.length) :
    v.Navigates v.history.snapshots.length where
  right _ := movesTo_tryMove (History.stepForward_clamped (Nat.le_pred_of_lt inside)) ..
  left _ := movesTo_tryMove (History.stepBackward_clamped v.history) ..
  digit k rested positive single := by
    have steps := History.stepForwardUpTo_clamped (Nat.le_pred_of_lt inside) k
    have counted : v.history.position + min k (v.history.snapshots.length - 1 - v.history.position) =
        min (v.history.position + k) (v.history.snapshots.length - 1) := by omega
    rw [press_digit positive single, stepForwardBy, steps]
    exact ⟨_, counted, ⟨counted ▸ rfl, rfl⟩, rfl⟩
  enter _ := ⟨rfl, rfl⟩
  backspace _ := ⟨rfl, rfl⟩
  space := movesTo_togglePlaying inside
  repeated := ⟨rfl, rfl⟩
  other _ rested still := movesTo_other still v rested

/-- No key leaves the history. -/
theorem Navigates.within {count : Nat} (navigates : v.Navigates count) (inside : v.history.position < count)
    (key : Key) (rested : Bool) : ∃ position < count, ∃ playing, v.MovesTo (v.press key rested) position playing := by
  by_cases moves : key.Moves
  · cases moves with
    | right => exact ⟨_, by omega, _, navigates.right rested⟩
    | left => exact ⟨_, by omega, _, navigates.left rested⟩
    | enter => exact ⟨_, by omega, _, navigates.enter rested⟩
    | backspace => exact ⟨_, by omega, _, navigates.backspace rested⟩
    | digit positive single =>
      obtain ⟨taken, clamped, moved, _⟩ := navigates.digit _ rested positive single
      exact ⟨_, by omega, _, moved⟩
    | space =>
      cases rested with
      | false => exact ⟨_, inside, _, navigates.repeated⟩
      | true => exact ⟨_, by split <;> omega, _, navigates.space⟩
  · exact ⟨_, inside, _, navigates.other key rested moves⟩

theorem history_draw (v : Viewer) (width height : Nat) : (v.draw width height).1.history = v.history := by
  unfold draw
  split <;> rfl

/-- Keys and draws leave a viewer in the history that it was opened on. -/
theorem Watched.in_history {start : Viewer} (inside : start.history.position < start.history.snapshots.length)
    (watched : Watched start v) :
    v.history = start.history.moveTo v.history.position ∧ v.history.position < start.history.snapshots.length := by
  induction watched with
  | opened => exact ⟨rfl, inside⟩
  | @pressed v _ key rested ih =>
    obtain ⟨same, bound⟩ := ih
    have count : v.history.snapshots.length = start.history.snapshots.length := by rw [same, History.snapshots_moveTo]
    obtain ⟨position, within, _, moved⟩ := (navigates (count ▸ bound)).within (count ▸ bound) key rested
    rw [moved.history, History.position_moveTo, same, History.moveTo_moveTo]
    exact ⟨rfl, count ▸ within⟩
  | drawn _ width height ih =>
    rw [history_draw]
    exact ih
  | sourceDrawn _ _ _ _ _ _ ih => exact ih

/-- A viewer is a cursor on its recording, clamped at both ends. However it came to where it is, and whether it was
playing from the start or not, its history is still the one it was opened on and has a current snapshot. From there each
key takes it where `Navigates` says. -/
theorem navigation_is_clamped {start : Viewer} (reach : start.history.Reachable)
    (recorded : start.history.snapshots ≠ []) (watched : Watched start v) :
    let count := start.history.snapshots.length
    v.history = { start.history with position := v.history.position } ∧ v.history.position < count ∧
      (∃ shot ∈ start.history.snapshots, v.history.current? = some shot) ∧ v.Navigates count := by
  obtain ⟨same, bound⟩ := watched.in_history (reach.position_lt recorded)
  have snapshots : v.history.snapshots = start.history.snapshots := by rw [same, History.snapshots_moveTo]
  have current : v.history.current? = some start.history.snapshots[v.history.position] := by
    rw [History.current?, snapshots, List.getElem?_eq_getElem bound]
  have keys := navigates (snapshots ▸ bound)
  rw [snapshots] at keys
  exact ⟨same, bound, ⟨_, List.getElem_mem bound, current⟩, keys⟩

/-- Four snapshots. The last one is jumped to, the space bar starts over from it, and a nine is three steps too many. -/
theorem navigation_is_clamped_of_replay :
    ∃ (script : Text) (recording : Recording) (v : Viewer), ({} : Session).record script 10000 = .ok recording ∧
      recording.history.Reachable ∧ recording.history.snapshots.length = 4 ∧
      Watched (ofRecording recording script "") v ∧ v.history.position = 3 ∧
      (v.press (.char ' ') true).history.position = 0 ∧ (v.press (.char ' ') true).playing = true ∧
      ((v.press (.char ' ') true).press (.char '9') true).history.position = 3 ∧
      ((v.press (.char ' ') true).press (.char '9') true).status = "Stepped forward 3 step(s)" := by
  let script := "int main() \x7b\n  int a;\n\x7d\n".toList
  obtain ⟨recording, recorded, four⟩ : ∃ recording, ({} : Session).record script 10000 = .ok recording ∧
      recording.history.snapshots.length = 4 := by
    have some_recording : (({} : Session).record script 10000).toOption.any
        fun recording => recording.history.snapshots.length = 4 := by decide +kernel
    obtain ⟨recording, recorded, four⟩ := exists_ok_of_any some_recording
    exact ⟨recording, recorded, of_decide_eq_true four⟩
  let start := ofRecording recording script ""
  have reach : start.history.Reachable := Session.record_reachable recorded
  have count : start.history.snapshots.length = 4 := four
  have some_snapshot : start.history.snapshots ≠ [] := List.ne_nil_of_length_pos (by omega)
  have at_end : Watched start (start.press .enter true) := Watched.opened.pressed .enter true
  have last : (start.press .enter true).history.position = 3 := congrArg (· - 1) count
  obtain ⟨_, _, _, keys⟩ := navigation_is_clamped reach some_snapshot at_end
  obtain ⟨_, _, _, replayed⟩ := navigation_is_clamped reach some_snapshot (at_end.pressed (.char ' ') true)
  rw [count] at keys replayed
  have first : ((start.press .enter true).press (.char ' ') true).history.position = 0 := by
    rw [keys.space.history, if_pos ⟨rfl, last⟩]
    rfl
  obtain ⟨taken, clamped, moved, status⟩ := replayed.digit 9 true (by decide) (by decide)
  rw [first] at clamped moved
  obtain rfl : taken = 3 := by omega
  exact ⟨script, recording, start.press .enter true, recorded, reach, count, at_end, last, first, keys.space.playing,
    congrArg History.position moved.history, status⟩

end MemoryTrace.Viewer
