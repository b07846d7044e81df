import MemoryTrace.Text.Alphanumeric
import MemoryTrace.Viewer.Screen

namespace MemoryTrace.Viewer

/-- The words that are colored as types. -/
def typeWords : List String :=
  ["int", "char", "void", "bool", "float", "double", "long", "short", "unsigned", "signed", "size_t", "auto"]

/-- The words that are colored as keywords. -/
def keywords : List String :=
  ["class", "struct", "public", "private", "protected", "return", "if", "else", "while", "for", "new", "delete",
   "const", "static"]

/-- The style of a word. One that opens a parenthesis or an angle bracket counts as a function. -/
def wordStyle (word : Text) (opens : Bool) : Style :=
  let among (words : List String) : Bool := words.any (·.toList = word)
  if among typeWords then .ofColor Palette.teal
  else if among keywords then (Style.ofColor Palette.blue).bolded
  else if among ["unique_ptr", "make_unique"] then .ofColor Palette.teal
  else if among ["shared_ptr", "make_shared"] then .ofColor Palette.mauve
  else if among ["nullptr", "NULL", "true", "false"] then .ofColor Palette.orange
  else if word.all Char.isDigit then .ofColor Palette.orange
  else if opens then .ofColor Palette.yellow
  else .ofColor Palette.plain

/-- The characters that are colored as brackets. -/
def brackets : List Char := ['{', '}', '(', ')', '[', ']', '<', '>']

/-- The style of a character that belongs to no word. -/
def symbolStyle (c : Char) : Style :=
  .ofColor (if brackets.contains c then Palette.blue else Palette.plain)

/-- The style of a comment. -/
def commentStyle : Style := .ofColor Palette.grey

/-- The span of a word, or none for the empty word. -/
def wordSpan (word : Text) (style : Style) : List Span := if word.isEmpty then [] else [{ text := word, style }]

/-- Colors a line from here on. `word` is the word read so far. A comment takes the rest of the line, and
leaves a word in front of it uncolored. -/
def highlightFrom (word : Text) : Text → List Span
  | [] => wordSpan word (wordStyle word false)
  | c :: rest =>
    if Text.startsWith "//" (c :: rest) then wordSpan word {} ++ [{ text := c :: rest, style := commentStyle }]
    else if isAlphanumeric c || c = '_' then highlightFrom (word ++ [c]) rest
    else wordSpan word (wordStyle word (c = '(' || c = '<')) ++
      { text := [c], style := symbolStyle c } :: highlightFrom [] rest

/-- Colors a line. -/
def highlight (line : Text) : List Span := highlightFrom [] line

end MemoryTrace.Viewer
