import MemoryTrace.Viewer.Pane.Stack

namespace MemoryTrace.Viewer

/-- What makes memory is green, what frees it orange, and a leak stands out. -/
def kindStyle : EventKind → Style
  | .allocate | .construct => .ofColor Palette.green
  | .deallocate | .destruct => .ofColor Palette.orange
  | .assign => .ofColor Palette.blue
  | .copy => .ofColor Palette.mauve
  | .move => .ofColor Palette.teal
  | .leak => (Style.ofColor Palette.maroon).bolded

/-- One event of the log. -/
def eventLine (e : Event) : Line :=
  { spans :=
      [.ofString (Column.right 4 (toString e.time) ++ " ") (.ofColor Palette.grey),
       .ofString (Column.left 6 e.kind.label) (kindStyle e.kind),
       .ofString e.description (.ofColor Palette.plain)] }

/-- A row one cell in from the left. Where there is no room for that cell there is none for the line. -/
def indentedRow (width : Nat) (line : Line) : Row := ({} :: line.row (width - 1)).take width

/-- The log, oldest first. An empty log leaves the scroll alone and colors the whole box. -/
def drawEvents (log : EventLog) (focused : Bool) (scroll : ListScroll) (width height : Nat) :
    ListScroll × List Row :=
  match log.entries.map eventLine with
  | [] =>
    let style := Style.ofColor Palette.grey
    let notice := (Line.ofString "(no events)" {}).spans
    let inside := { spans := notice, style : Line }.row (width - 2) ::
      List.replicate (height - 3) (Line.row (width - 2) { spans := [], style })
    (scroll, box " Memory Events " focused width height inside)
  | items =>
    let (next, shown) := scroll.visibleItems height items
    (next, box " Memory Events " focused width height (shown.map (indentedRow (width - 2))))

end MemoryTrace.Viewer
