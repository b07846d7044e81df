import MemoryTrace.Memory.Leak
import MemoryTrace.Viewer.Pane.Stack

namespace MemoryTrace.Viewer

/-- Who manages a heap block, and for how many owners if they are counted. -/
def ownershipLabel (b : Block) : String :=
  match b.owners? with
  | some owners => s!"{b.managedBy.label} (refs: {owners})"
  | none => b.managedBy.label

/-- The address is taken to be ten characters wide. -/
def allocationLine (width : Nat) (leaked : Bool) (b : Block) : Line :=
  let size := s!"{b.size} bytes"
  let ownership := ownershipLabel b
  let type := (b.layout?.map (·.name)).getD ""
  let addressStyle := if leaked then (Style.ofColor Palette.maroon).bolded else .ofColor Palette.grey
  { spans :=
      [.ofString (Column.address b.address) addressStyle,
       .ofString " | " {},
       .ofString size (.ofColor Palette.blue),
       .ofString " | " {},
       .ofString ownership (disciplineStyle b.managedBy),
       gap (width - 16) [size, ownership] [type],
       .ofString type (.ofColor Palette.teal)] }

/-- The line below a leaked block. -/
def leakLine (b : Block) : Line :=
  { spans :=
      [.ofString "  " {},
       .ofString " LEAK " ((Style.ofColor .black).onto Palette.maroon).bolded,
       .ofString s!" {b.name} is unreachable" (.ofColor Palette.maroon)] }

/-- The names of the live pointers to a block. -/
def ownerNames (m : Memory) (id : BlockId) : List String :=
  (m.liveBlocks.filter (·.target? = some id)).map (·.name)

/-- The line below a block that is pointed to. -/
def ownersLine (names : List String) : Line :=
  let owners := ", ".intercalate names
  { Line.ofString s!"  owned by: {owners}" {} with style := .ofColor Palette.grey }

/-- A leak, or the owners. A block that is neither leaked nor pointed to has no such line. -/
def ownerLines (m : Memory) (b : Block) : List Line :=
  if m.leaks.contains b.id then [leakLine b]
  else match ownerNames m b.id with
    | [] => []
    | owners => [ownersLine owners]

/-- The line of a heap block, and the one below it if there is any. -/
def allocationLines (m : Memory) (width : Nat) (b : Block) : List Line :=
  allocationLine width (m.leaks.contains b.id) b :: ownerLines m b

/-- The live heap blocks by address, with an empty line between any two. -/
def heapLines (m : Memory) (width : Nat) : List Line :=
  match m.heapBlocks.mergeSort fun a b => a.address ≤ b.address with
  | [] => [{ Line.ofString "(no active allocations)" {} with style := .ofColor Palette.grey }]
  | allocations => ((allocations.map (allocationLines m width)).intersperse [{ spans := [] }]).flatten

/-- Draws the live heap blocks that are scrolled to. -/
def drawHeap (m : Memory) (focused : Bool) (scroll : ListScroll) (width height : Nat) : ListScroll × List Row :=
  drawList " Heap " focused scroll width height (heapLines m (width - 2))

end MemoryTrace.Viewer
