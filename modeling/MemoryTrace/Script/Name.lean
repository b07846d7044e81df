import MemoryTrace.Text.Blank

namespace MemoryTrace.Script

/-- The first character of a name. Names are ASCII. -/
def isNameStart (c : Char) : Bool := c.isAlpha || c = '_'

/-- Any later character of a name. -/
def isNameChar (c : Char) : Bool := c.isAlphanum || c = '_'

/-- Whether the text is a name: letters, digits and underscores, the first of them not a digit. -/
def isName : Text → Bool
  | [] => false
  | c :: rest => isNameStart c && rest.all isNameChar

/-- The longest name the text begins with, which may be none at all. -/
def leadingName : Text → Text
  | [] => []
  | c :: rest => if c.isDigit then [] else (c :: rest).takeWhile isNameChar

/-- The text behind the leading name. -/
def afterName (text : Text) : Text := text.drop (leadingName text).length

/-- The variable that an assignment to `text` reaches: `*p`, `p->x`, `p.x` and `a[1]` all write
through the name in front. -/
def baseName (text : Text) : Text :=
  leadingName (text.trim.dropWhile fun c => c = '*' || c = '(' || c = ' ')

/-- Whether an assignment to `text` writes through a variable instead of to it. -/
def isIndirect (text : Text) : Bool :=
  text.trim.startsWith "*" || text.mentions "->" || text.contains '.' || text.contains '['

theorem leadingName_isPrefix (text : Text) : leadingName text <+: text := by
  cases text with
  | nil => exact List.nil_prefix
  | cons c rest =>
    rw [leadingName]
    split
    · exact List.nil_prefix
    · exact List.takeWhile_prefix _

/-- A text is its leading name and what is behind that. -/
theorem leadingName_append_afterName (text : Text) : leadingName text ++ afterName text = text :=
  (List.prefix_iff_eq_append.mp (leadingName_isPrefix text))

theorem afterName_length_lt {text : Text} (named : leadingName text ≠ []) :
    (afterName text).length < text.length := by
  have whole := congrArg List.length (leadingName_append_afterName text)
  have nonempty := List.length_pos_iff.mpr named
  simp only [List.length_append] at whole
  omega

end MemoryTrace.Script
