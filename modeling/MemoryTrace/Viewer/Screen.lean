import MemoryTrace.Text.Blank
import MemoryTrace.Viewer.Style

namespace MemoryTrace.Viewer

/-- One place on the screen. Every character takes one cell here, the wide ones and the combining ones too. That is a
simplification: a terminal shows some of them in two cells, and some in none. -/
structure Cell where
  symbol : Char := ' '
  style : Style := {}
  deriving DecidableEq, Repr

/-- The cells of one row, from left to right. -/
abbrev Row := List Cell

/-- Text in one style. -/
structure Span where
  text : Text
  style : Style := {}
  deriving DecidableEq, Repr

/-- A string in one style. -/
def Span.ofString (text : String) (style : Style) : Span := { text := text.toList, style }

/-- A line of spans. Its own style lies under them and fills what they leave. -/
structure Line where
  spans : List Span
  style : Style := {}
  deriving DecidableEq, Repr

/-- Cuts or fills a list to exactly `n` elements. -/
def fit {α : Type} (n : Nat) (filler : α) (xs : List α) : List α :=
  xs.take n ++ List.replicate (n - xs.length) filler

@[simp] theorem length_fit {α : Type} (n : Nat) (filler : α) (xs : List α) : (fit n filler xs).length = n := by
  simp only [fit, List.length_append, List.length_take, List.length_replicate]
  omega

namespace Line

/-- A string with the style under it, which fills the row. -/
def ofString (text : String) (style : Style) : Line := { spans := [{ text := text.toList }], style }

/-- What a line reads. -/
def text (line : Line) : Text := line.spans.flatMap (·.text)

/-- The text without its line ends, which have no cell. A carriage return that ends no line has one. -/
def withoutLineEnds : Text → Text
  | [] => []
  | '\n' :: rest => withoutLineEnds rest
  | '\r' :: '\n' :: rest => withoutLineEnds rest
  | c :: rest => c :: withoutLineEnds rest

/-- The cells of the text, one for every character. -/
def cells (line : Line) : Row :=
  line.spans.flatMap fun span =>
    (withoutLineEnds span.text).map fun c => { symbol := c, style := span.style.laidOver line.style }

/-- What stands behind the text. -/
def filler (line : Line) : Cell := { style := line.style }

/-- The line from the left edge, cut at `width`. -/
def row (width : Nat) (line : Line) : Row := fit width line.filler line.cells

/-- The line up to the right edge. One that is too wide shows its left part. -/
def rowRight (width : Nat) (line : Line) : Row :=
  fit width line.filler (List.replicate (width - line.cells.length) line.filler ++ line.cells)

end Line

/-- What a row reads, without the blanks at its end. -/
def Row.text (row : Row) : Text := Text.trimEnd (row.map (·.symbol))

/-- The row as stretches of one style. -/
def Row.runs (row : Row) : List Span :=
  (row.splitBy fun a b => a.style = b.style).filterMap fun run =>
    run.head?.map fun first => { text := run.map (·.symbol), style := first.style }

/-- A row with nothing on it. -/
def blankRow (width : Nat) : Row := List.replicate width {}

/-- The cells that a screen may have. -/
def largestArea : Nat := 65535

/-- The size of a screen, where this one is asked for. A screen with too many cells shrinks and keeps its
shape. -/
def screenSize (width height : Nat) : Nat × Nat :=
  if width * height ≤ largestArea then (width, height)
  else
    let shape := width.toFloat / height.toFloat
    let shrunk := (largestArea.toFloat / shape).sqrt
    ((shrunk * shape).toUInt64.toNat, shrunk.toUInt64.toNat)

/-- Boxes have a bright border while their pane has the focus. -/
def borderStyle (focused : Bool) : Style :=
  if focused then (Style.ofColor Palette.yellow).bolded else .ofColor Palette.grey

/-- A box around `inside`, with its title in the upper border. Of a box too small for its border the left
and upper parts remain. -/
def box (title : String) (focused : Bool) (width height : Nat) (inside : List Row) : List Row :=
  let edge (c : Char) : Cell := { symbol := c, style := borderStyle focused }
  let horizontal (left right : Char) (middle : Text) : Row :=
    (edge left :: fit (width - 2) (edge '─') (middle.map edge) ++ [edge right]).take width
  let between (row : Row) : Row := (edge '│' :: fit (width - 2) {} row ++ [edge '│']).take width
  (horizontal '┌' '┐' title.toList ::
    (fit (height - 2) (blankRow (width - 2)) inside).map between ++ [horizontal '└' '┘' []]).take height

end MemoryTrace.Viewer
