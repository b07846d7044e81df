import MemoryTrace.Recording.Record
import MemoryTrace.Viewer.Pane.Events
import MemoryTrace.Viewer.Pane.Heap
import MemoryTrace.Viewer.Pane.Source
import MemoryTrace.Viewer.Pane.Status
import MemoryTrace.Viewer.State

namespace MemoryTrace

namespace Viewer

/-- The sizes of the panes on a screen. The status bar takes the last row of it. -/
structure Layout where
  leftWidth : Nat
  rightWidth : Nat
  sourceHeight : Nat
  eventsHeight : Nat
  stackHeight : Nat
  heapHeight : Nat
  deriving DecidableEq, Repr

/-- The panes share the screen in fixed proportions. -/
def Layout.ofScreen (width height : Nat) : Layout :=
  let main := height - 1
  { leftWidth := percent 60 width
    rightWidth := width - percent 60 width
    sourceHeight := percent 70 main
    eventsHeight := main - percent 70 main
    stackHeight := percent 50 main
    heapHeight := main - percent 50 main }

/-- What the status bar says on a step. On the last one that is the outcome, unless it plays. -/
def statusOf (v : Viewer) (snapshot : Snapshot) : Status where
  message := if v.history.isAtEnd && !v.playing then v.outcome else v.status
  step := v.history.position
  stepCount := v.history.snapshots.length
  stats := snapshot.memory.stats
  failed := v.failed && v.history.isAtEnd
  playing := v.playing

/-- Draws the current snapshot. Drawing settles where each pane is scrolled to. Rows are made of cells, one for every
character. -/
def draw (v : Viewer) (width height : Nat) : Viewer × List Row :=
  match v.history.current? with
  | none => (v, List.replicate height (blankRow width))
  | some snapshot =>
    let l := Layout.ofScreen width height
    let failed := v.failed && v.history.isAtEnd
    let (sourceScroll, source) := drawSource v.source snapshot.line failed (v.focus = .source) v.sourceScroll
      l.leftWidth l.sourceHeight
    let (eventsScroll, events) := drawEvents snapshot.memory.events (v.focus = .events) v.eventsScroll
      l.leftWidth l.eventsHeight
    let (stackScroll, stack) := drawStack snapshot.memory (v.focus = .stack) v.stackScroll
      l.rightWidth l.stackHeight
    let (heapScroll, heap) := drawHeap snapshot.memory (v.focus = .heap) v.heapScroll
      l.rightWidth l.heapHeight
    ({ v with sourceScroll, eventsScroll, stackScroll, heapScroll },
      List.zipWith (· ++ ·) (source ++ events) (stack ++ heap) ++
        drawStatus (v.statusOf snapshot) width (min height 1))

/-- The viewer on a recording. -/
def ofRecording (recording : Recording) (source : Text) (outcome : String) : Viewer :=
  { history := recording.history, source, outcome, failed := recording.error.isSome }

end Viewer

end MemoryTrace
