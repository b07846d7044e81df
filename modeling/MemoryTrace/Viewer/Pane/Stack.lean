import MemoryTrace.Memory.Basic
import MemoryTrace.Text.Column
import MemoryTrace.Viewer.Screen
import MemoryTrace.Viewer.Scroll

namespace MemoryTrace.Viewer

/-- Each discipline has its own color. -/
def disciplineStyle : Discipline → Style
  | .raw => .ofColor Palette.blue
  | .unique => .ofColor Palette.teal
  | .shared => .ofColor Palette.mauve

/-- Draws the items of a list pane that are scrolled to. -/
def drawList (title : String) (focused : Bool) (scroll : ListScroll) (width height : Nat) (items : List Line) :
    ListScroll × List Row :=
  let (next, shown) := scroll.visibleItems height items
  (next, box title focused width height (shown.map (·.row (width - 2))))

/-- Blanks between a left and a right part that fill the width. Both parts are measured in bytes. -/
def gap (width : Nat) (left right : List String) : Span :=
  let taken := total String.utf8ByteSize (left ++ right)
  { text := List.replicate (width - taken) ' ' }

/-- Where a pointer points. Only a target that is live has an address to show. -/
def targetSpan (m : Memory) (b : Block) : String × Style :=
  match b.target? with
  | none => ("nullptr", .ofColor Palette.orange)
  | some id =>
    match (m.block? id).filter (·.live) with
    | some target => (s!"-> {Column.address target.address} ({target.name})", .ofColor Palette.orange)
    | none => (s!"-> #{id} (dangling)", (Style.ofColor Palette.red).bolded)

/-- What a stack block holds, and its type. -/
def contentSpans (m : Memory) (b : Block) : (String × Style) × (String × Style) :=
  match b.content with
  | .pointer p => (targetSpan m b, (p.discipline.label, disciplineStyle p.discipline))
  | .object layout => (("\x7b .. \x7d", .ofColor Palette.grey), (layout.name, .ofColor Palette.teal))
  | .value => (("value", .ofColor Palette.grey), ("", {}))

/-- The address is taken to be ten characters wide. -/
def slotLine (m : Memory) (width : Nat) (b : Block) : Line :=
  let (held, type) := contentSpans m b
  let size := s!"{b.size} B "
  { spans :=
      [.ofString (Column.address b.address ++ " ") (.ofColor Palette.grey),
       .ofString b.name (.ofColor Palette.plain),
       .ofString ": " {},
       .ofString held.1 held.2,
       gap (width - 13) [b.name, held.1] [size, type.1],
       .ofString size (.ofColor Palette.blue),
       .ofString type.1 type.2] }

/-- A member below the object that it belongs to. -/
def memberLine (member : Member) : Line :=
  { spans :=
      [.ofString "    ." {},
       .ofString member.name (.ofColor Palette.plain),
       .ofString s!" {member.typeName} ({member.size} B)" (.ofColor Palette.grey)] }

/-- The live stack blocks by address, each with the members of its class. -/
def stackLines (m : Memory) (width : Nat) : List Line :=
  match m.stackBlocks.mergeSort fun a b => a.address ≤ b.address with
  | [] => [{ Line.ofString "(empty stack)" {} with style := .ofColor Palette.grey }]
  | slots => slots.flatMap fun b =>
    slotLine m width b :: ((b.layout?.map (·.members)).getD []).map memberLine

/-- Draws the live stack blocks that are scrolled to. -/
def drawStack (m : Memory) (focused : Bool) (scroll : ListScroll) (width height : Nat) : ListScroll × List Row :=
  drawList " Stack " focused scroll width height (stackLines m (width - 2))

end MemoryTrace.Viewer
