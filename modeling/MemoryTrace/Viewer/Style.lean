namespace MemoryTrace.Viewer

/-- Black and white are the terminal's own. The others are mixed. -/
inductive Color
  | black
  | white
  | rgb (red green blue : Nat)
  deriving DecidableEq, Repr

/-- How a cell looks. A color that is not set is the terminal's own. -/
structure Style where
  foreground : Option Color := none
  background : Option Color := none
  bold : Bool := false
  deriving DecidableEq, Repr

namespace Style

/-- One style drawn over another: what it sets wins, and bold stays bold. -/
def laidOver (top bottom : Style) : Style where
  foreground := top.foreground.or bottom.foreground
  background := top.background.or bottom.background
  bold := top.bold || bottom.bold

/-- Text in a color. -/
def ofColor (color : Color) : Style := { foreground := some color }

/-- The same text on a color. -/
def onto (style : Style) (color : Color) : Style := { style with background := some color }

/-- The same text in bold. -/
def bolded (style : Style) : Style := { style with bold := true }

end Style

namespace Palette

def plain : Color := .rgb 205 214 244

def blue : Color := .rgb 137 180 250

def orange : Color := .rgb 250 179 135

def grey : Color := .rgb 108 112 134

def green : Color := .rgb 166 227 161

def red : Color := .rgb 243 139 168

def yellow : Color := .rgb 249 226 175

def shade : Color := .rgb 50 50 70

def teal : Color := .rgb 148 226 213

def mauve : Color := .rgb 203 166 247

def maroon : Color := .rgb 235 160 172

end Palette

end MemoryTrace.Viewer
