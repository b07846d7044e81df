import MemoryTrace.Text.Number

namespace MemoryTrace.Viewer

/-- The rows inside a box of that height. There is room for one at least, even if it cannot be drawn. -/
def visibleHeight (height : Nat) : Nat := max (height - 2) 1

theorem visibleHeight_of_tall {height : Nat} (tall : 3 ≤ height) : visibleHeight height = height - 2 := by
  unfold visibleHeight
  omega

/-- The part of a list that begins at `offset`. -/
def window {α : Type} (offset height : Nat) (items : List α) : List α := (items.drop offset).take height

/-- Where a list pane is scrolled to, and how many items it had when it was last drawn. -/
structure ListScroll where
  offset : Nat := 0
  itemCount : Nat := 0
  deriving DecidableEq, Repr

namespace ListScroll

/-- The scroll of the next draw: at the newest item if items were added, else where it was, as far as the
list goes. -/
def follow (scroll : ListScroll) (height itemCount : Nat) : ListScroll :=
  let furthest := itemCount - visibleHeight height
  { offset := if scroll.itemCount < itemCount then furthest else min scroll.offset furthest, itemCount }

/-- Draws a list in a box of that height. -/
def visibleItems {α : Type} (scroll : ListScroll) (height : Nat) (items : List α) : ListScroll × List α :=
  let next := scroll.follow height items.length
  (next, window next.offset (visibleHeight height) items)

/-- One item towards the oldest, as far as there is one. -/
def up (scroll : ListScroll) : ListScroll := { scroll with offset := scroll.offset - 1 }

/-- One item towards the newest. Only the next draw keeps it within the list. -/
def down (scroll : ListScroll) : ListScroll := { scroll with offset := saturate (scroll.offset + 1) }

end ListScroll

/-- Where the source pane is scrolled to, and the row that the current line is kept on. Until it is first
drawn there is no such row. -/
structure SourceScroll where
  offset : Nat := 0
  row : Option Nat := none
  deriving DecidableEq, Repr

namespace SourceScroll

/-- The scroll of the next draw. The row starts in the middle and never leaves the box. A current line that
exists is brought to it, as far as the text goes. -/
def follow (scroll : SourceScroll) (height lineCount : Nat) (current : Option Nat) : SourceScroll :=
  let visible := visibleHeight height
  let row := min (scroll.row.getD (visible / 2)) (visible - 1)
  let offset := match current with
    | some line =>
      if 0 < line ∧ line ≤ lineCount then min (line - 1 - row) (lineCount - visible) else scroll.offset
    | none => scroll.offset
  { offset, row := some row }

/-- Moves the text up, and so the row of the current line down. -/
def up (scroll : SourceScroll) : SourceScroll := { scroll with row := scroll.row.map fun row => saturate (row + 1) }

/-- Moves the text down, and so the row of the current line up. -/
def down (scroll : SourceScroll) : SourceScroll := { scroll with row := scroll.row.map (· - 1) }

end SourceScroll

end MemoryTrace.Viewer
