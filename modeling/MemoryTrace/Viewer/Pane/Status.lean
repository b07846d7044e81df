import MemoryTrace.Memory.Leak
import MemoryTrace.Viewer.Screen

namespace MemoryTrace.Viewer

/-- What the status bar shows. Steps are numbered from 0. -/
structure Status where
  message : String
  step : Nat
  stepCount : Nat
  stats : MemoryStats
  failed : Bool
  playing : Bool

namespace Status

/-- Whether the number shown for the step, which is counted from 1, is a word. -/
def isCountable (s : Status) : Bool := s.step < largestWord

/-- The style of the bar where nothing else is set. -/
def bar : Style := { background := some Palette.shade }

/-- Colored text on the bar. -/
def colored (color : Color) : Style := (Style.ofColor color).laidOver bar

/-- Black text on a color. -/
def badge (color : Color) : Style := ((Style.ofColor .black).onto color).bolded

/-- The step, the bytes in use, the leaks if there are any, and the message. -/
def leftLine (s : Status) : Line :=
  let separator : Span := .ofString " | " (colored Palette.grey)
  let leaked : List Span :=
    if 0 < s.stats.leakedBlocks then
      [.ofString s!" {s.stats.leakedBlocks} leaked ({s.stats.leakedBytes} B) " (badge Palette.maroon)]
    else []
  { style := bar
    spans :=
      [.ofString s!" Step {s.step + 1}/{s.stepCount} " (badge (if s.failed then Palette.red else Palette.blue)),
       separator,
       .ofString s!"stack {s.stats.stackBytes} B  heap {s.stats.heapBytes} B " (colored Palette.plain)] ++
      leaked ++
      [separator,
       .ofString s!"{s.message} " (colored (if s.failed then Palette.red else Palette.plain))] }

/-- The badge on the right: a run that plays, and else the end or the start. -/
def stateBadge? (s : Status) : Option (String × Color) :=
  if s.playing then some (" ▶ PLAYING ", Palette.orange)
  else if s.stepCount ≤ s.step + 1 then some (" END ", Palette.red)
  else if s.step = 0 then some (" START ", Palette.green)
  else none

/-- The keys, and what they do. -/
def keyHints : List (String × String) :=
  [(" ←/→ ", " step "), (" ⎵ ", " play "), (" ↵ / ⌫ ", " end/start "), ("q", " quit ")]

/-- What the keys do, and the badge. -/
def rightLine (s : Status) : Line :=
  let separator : Span := .ofString "│" (colored Palette.grey)
  let key : Style := (Style.ofColor .black).onto Palette.grey
  let hint (pair : String × String) : List Span :=
    [.ofString pair.1 key, .ofString pair.2 (colored Palette.plain)]
  let hints := ((keyHints.map hint).intersperse [separator, .ofString " " (colored Palette.plain)]).flatten
  let state : List Span :=
    match s.stateBadge? with
    | some (label, color) => [separator, .ofString label (badge color)]
    | none => []
  { style := bar, spans := hints ++ state }

end Status

/-- A share of a length in percent, rounded to nearest, a half upwards. -/
def percent (share length : Nat) : Nat := (length * share + 50) / 100

/-- The bar: numbers and message on the left half, keys on the right. It is one line, whatever its height. -/
def drawStatus (s : Status) (width height : Nat) : List Row :=
  let half := percent 50 width
  let line : Row := s.leftLine.row half ++ s.rightLine.rowRight (width - half)
  (line :: List.replicate (height - 1) (List.replicate width { style := Status.bar })).take height

end MemoryTrace.Viewer
