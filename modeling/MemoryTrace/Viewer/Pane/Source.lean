import MemoryTrace.Script.CodeLine
import MemoryTrace.Text.Column
import MemoryTrace.Viewer.Highlight
import MemoryTrace.Viewer.Scroll

namespace MemoryTrace.Viewer

/-- A numbered line that is not the current one. -/
def plainLine (number : Nat) (line : Text) : Line :=
  { spans := .ofString (Column.right 4 (toString number) ++ " ") (.ofColor Palette.grey) :: highlight line }

/-- The current line, on a shade, or in the error colors if it failed. -/
def currentLine (number : Nat) (line : Text) (failed : Bool) : Line :=
  let label := Column.right 4 (toString number) ++ " "
  if failed then
    let style := ((Style.ofColor .white).onto Palette.red).bolded
    { spans := .ofString label (Style.ofColor Palette.red).bolded ::
        (highlight line).map fun span => { span with style } }
  else
    { spans := .ofString label (Style.ofColor Palette.orange).bolded ::
        (highlight line).map fun span => { span with style := span.style.onto Palette.shade } }

/-- The lines of the script with their numbers. The current one stands out, in another color where the run failed. -/
def sourceLines (source : Text) (current : Option Nat) (failed : Bool) : List Line :=
  (Script.numberedLines source).map fun line =>
    if current = some line.1 then currentLine line.1 line.2 failed else plainLine line.1 line.2

/-- The script with the line about to run. -/
def drawSource (source : Text) (current : Option Nat) (failed focused : Bool) (scroll : SourceScroll)
    (width height : Nat) : SourceScroll × List Row :=
  let lines := sourceLines source current failed
  let next := scroll.follow height lines.length current
  (next, box " Source Code " focused width height
    ((window next.offset (visibleHeight height) lines).map (·.row (width - 2))))

end MemoryTrace.Viewer
