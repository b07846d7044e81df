import MemoryTrace.Viewer.Frame

namespace MemoryTrace

namespace History

variable {h next : History}

theorem snapshots_stepForward (stepped : h.stepForward = .ok next) : next.snapshots = h.snapshots := by
  unfold stepForward at stepped
  split at stepped
  · contradiction
  · rw [← Except.ok.inj stepped]

theorem snapshots_stepBackward (stepped : h.stepBackward = .ok next) : next.snapshots = h.snapshots := by
  unfold stepBackward at stepped
  split at stepped
  · contradiction
  · rw [← Except.ok.inj stepped]

theorem snapshots_stepForwardUpTo (count : Nat) (h : History) : (h.stepForwardUpTo count).2.snapshots = h.snapshots := by
  induction count generalizing h with
  | zero => rfl
  | succ count ih =>
    unfold stepForwardUpTo
    split
    · rename_i next stepped
      exact (ih next).trans (snapshots_stepForward stepped)
    · rfl

end History

namespace Viewer

/-- What a key can do to a viewer. -/
inductive Pressed (v : Viewer) : Viewer → Prop
  | up : Pressed v (v.scrollBy ListScroll.up SourceScroll.up)
  | down : Pressed v (v.scrollBy ListScroll.down SourceScroll.down)
  | moved (history : History) (kept : history.snapshots = v.history.snapshots) (focus : Pane) (quit : Bool)
      (status : String) (playing : Bool) : Pressed v { v with history, focus, quit, status, playing }

variable {v w : Viewer}

/-- A move that keeps the snapshots is something that a key can do. -/
theorem pressed_tryMove {next : Except HistoryError History}
    (kept : ∀ h, next = .ok h → h.snapshots = v.history.snapshots) (done refused : String) :
    Pressed v (v.tryMove next done refused) := by
  cases next with
  | ok h => exact .moved h (kept h rfl) ..
  | error e => exact .moved v.history rfl ..

theorem pressed_togglePlaying (v : Viewer) : Pressed v v.togglePlaying := by
  unfold togglePlaying
  split
  · exact .moved v.history rfl ..
  · refine .moved _ ?_ ..
    split <;> rfl

/-- Whatever a key does, it is one of these. -/
theorem pressed_press (v : Viewer) (key : Key) (rested : Bool) : Pressed v (v.press key rested) := by
  have idle : Pressed v v := .moved v.history rfl ..
  cases key with
  | left => exact pressed_tryMove (fun _ => History.snapshots_stepBackward) ..
  | right => exact pressed_tryMove (fun _ => History.snapshots_stepForward) ..
  | up => exact .up
  | down => exact .down
  | tab | backTab | escape | other => exact .moved v.history rfl ..
  | enter => exact .moved v.history.jumpToEnd rfl ..
  | backspace => exact .moved v.history.rewind rfl ..
  | char c =>
    unfold press
    dsimp only
    split
    · exact .moved v.history rfl ..
    · split
      · split
        · exact pressed_togglePlaying v
        · exact idle
      · split
        · exact .moved _ (History.snapshots_stepForwardUpTo ..) ..
        · exact idle

/-- The viewers look at the same snapshots and the same script. -/
structure SameRecording (v w : Viewer) : Prop where
  snapshots : w.history.snapshots = v.history.snapshots
  source : w.source = v.source

namespace SameRecording

theorem refl (v : Viewer) : SameRecording v v := ⟨rfl, rfl⟩

theorem trans {x : Viewer} (first : SameRecording v w) (second : SameRecording w x) : SameRecording v x :=
  ⟨second.snapshots.trans first.snapshots, second.source.trans first.source⟩

theorem scrollBy (v : Viewer) (list : ListScroll → ListScroll) (source : SourceScroll → SourceScroll) :
    SameRecording v (v.scrollBy list source) := by
  unfold Viewer.scrollBy
  split <;> exact ⟨rfl, rfl⟩

/-- No key changes the snapshots or the script. -/
theorem press (v : Viewer) (key : Key) (rested : Bool) : SameRecording v (v.press key rested) := by
  have pressed := pressed_press v key rested
  generalize v.press key rested = w at pressed
  cases pressed with
  | up | down => exact scrollBy ..
  | moved history kept => exact ⟨kept, rfl⟩

theorem draw (v : Viewer) (width height : Nat) : SameRecording v (v.draw width height).1 := by
  unfold Viewer.draw
  split <;> exact ⟨rfl, rfl⟩

end SameRecording

/-- What a viewer comes to by keys and draws. The source pane may also be drawn alone. -/
inductive Watched (start : Viewer) : Viewer → Prop
  | opened : Watched start start
  | pressed {v : Viewer} (watched : Watched start v) (key : Key) (rested : Bool) : Watched start (v.press key rested)
  | drawn {v : Viewer} (watched : Watched start v) (width height : Nat) : Watched start (v.draw width height).1
  | sourceDrawn {v : Viewer} (watched : Watched start v) (current : Option Nat) (failed focused : Bool)
      (width height : Nat) :
      Watched start
        { v with sourceScroll := (drawSource v.source current failed focused v.sourceScroll width height).1 }

/-- By keys and draws a viewer scrolls and moves through its snapshots, and changes neither them nor the script. -/
theorem Watched.sameRecording {start : Viewer} (watched : Watched start v) : SameRecording start v := by
  induction watched with
  | opened => exact .refl start
  | pressed _ key rested ih => exact ih.trans (.press _ key rested)
  | drawn _ width height ih => exact ih.trans (.draw _ width height)
  | sourceDrawn _ _ _ _ _ _ ih => exact ih.trans ⟨rfl, rfl⟩

end Viewer

end MemoryTrace
