import MemoryTrace.Recording.History
import MemoryTrace.Viewer.Scroll

namespace MemoryTrace

namespace Viewer

/-- The panes that can have the focus. -/
inductive Pane
  | source
  | events
  | stack
  | heap
  deriving DecidableEq, Repr

/-- Down the left column, then down the right one. -/
def Pane.next : Pane → Pane
  | source => events
  | events => stack
  | stack => heap
  | heap => source

/-- The same way back. -/
def Pane.previous : Pane → Pane
  | source => heap
  | events => source
  | stack => events
  | heap => stack

/-- The keys that a viewer tells apart. -/
inductive Key
  | left
  | right
  | up
  | down
  | tab
  | backTab
  | enter
  | backspace
  | escape
  | char (c : Char)
  | other
  deriving DecidableEq, Repr

/-- Keys by their names. A character is its own name. -/
def Key.named (name : String) : Key :=
  match name with
  | "left" => left
  | "right" => right
  | "up" => up
  | "down" => down
  | "tab" => tab
  | "backtab" => backTab
  | "enter" => enter
  | "backspace" => backspace
  | "esc" => escape
  | "space" => char ' '
  | _ =>
    match name.toList with
    | [c] => char c
    | _ => other

end Viewer

open Viewer

/-- A recorded run being looked at. `outcome` takes the place of `status` on the last step. -/
structure Viewer where
  history : History
  source : Text
  outcome : String
  failed : Bool
  focus : Pane := .source
  sourceScroll : SourceScroll := {}
  stackScroll : ListScroll := {}
  heapScroll : ListScroll := {}
  eventsScroll : ListScroll := {}
  quit : Bool := false
  status : String := "Ready!"
  playing : Bool := false
  deriving DecidableEq, Repr

namespace History

/-- Steps forward so many times, as far as the history goes, and counts the steps. -/
def stepForwardUpTo : Nat → History → Nat × History
  | 0, h => (0, h)
  | count + 1, h =>
    match h.stepForward with
    | .ok next =>
      let (taken, last) := stepForwardUpTo count next
      (taken + 1, last)
    | .error _ => (0, h)

end History

namespace Viewer

/-- A move through the history ends playing, and says what it did. -/
def moved (v : Viewer) (history : History) (status : String) : Viewer :=
  { v with history, status, playing := false }

/-- A move that the history may refuse. -/
def tryMove (v : Viewer) (next : Except HistoryError History) (done refused : String) : Viewer :=
  match next with
  | .ok history => v.moved history done
  | .error e => v.moved v.history s!"{refused}: {e.message}"

/-- Steps forward so many times, or up to the end. -/
def stepForwardBy (v : Viewer) (count : Nat) : Viewer :=
  let (taken, history) := v.history.stepForwardUpTo count
  v.moved history s!"Stepped forward {taken} step(s)"

/-- Scrolls the focused pane. -/
def scrollBy (v : Viewer) (list : ListScroll → ListScroll) (source : SourceScroll → SourceScroll) : Viewer :=
  match v.focus with
  | .source => { v with sourceScroll := source v.sourceScroll }
  | .stack => { v with stackScroll := list v.stackScroll }
  | .heap => { v with heapScroll := list v.heapScroll }
  | .events => { v with eventsScroll := list v.eventsScroll }

/-- Starts or stops playing. At the end, playing starts over. -/
def togglePlaying (v : Viewer) : Viewer :=
  if v.playing then { v with playing := false, status := "Paused" }
  else
    { v with
      playing := true
      status := "Playing..."
      history := if v.history.isAtEnd then v.history.rewind else v.history }

/-- One key press. `rested` means that the last press of the space bar is long enough ago to be another one,
and no repetition of it. -/
def press (v : Viewer) (key : Key) (rested : Bool) : Viewer :=
  match key with
  | .left => v.tryMove v.history.stepBackward "Stepped backward" "Cannot step backward"
  | .right => v.tryMove v.history.stepForward "Stepped forward" "Cannot step forward"
  | .enter => v.moved v.history.jumpToEnd "Jumped to end"
  | .backspace => v.moved v.history.rewind "Jumped to start"
  | .up => v.scrollBy ListScroll.up SourceScroll.up
  | .down => v.scrollBy ListScroll.down SourceScroll.down
  | .tab => { v with focus := v.focus.next }
  | .backTab => { v with focus := v.focus.previous }
  | .escape => { v with quit := true }
  | .other => v
  | .char c =>
    if c = 'q' ∨ c = 'Q' then { v with quit := true }
    else if c = ' ' then if rested then v.togglePlaying else v
    else if '1' ≤ c ∧ c ≤ '9' then v.stepForwardBy (c.toNat - '0'.toNat)
    else v

end Viewer

end MemoryTrace
