import MemoryTrace.Script.Name

namespace MemoryTrace.Script

/-- Drops the blanks around a statement and the semicolons that end it. -/
def trimStatement (text : Text) : Text := (text.trim.dropEndWhile (· = ';')).trimEnd

/-- `target = value`, or `target op= value` when compound. -/
structure Assignment where
  target : Text
  value : Text
  compound : Bool
  deriving DecidableEq, Repr

/-- Behind these an equals sign ends a comparison. -/
def comparisonMarks : List Char := ['=', '!', '<', '>']

/-- What makes the sign behind it one of a compound assignment. -/
def arithmeticMarks : List Char := ['+', '-', '*', '/', '%', '&', '|', '^']

/-- Looks for an equals sign that assigns: none follows, and no comparison mark precedes. `before` is
the text already passed, last character first. -/
def assignmentFrom? (before : Text) : Text → Option Assignment
  | [] => none
  | c :: rest =>
    if c = '=' ∧ rest.head? ≠ some '=' ∧ ¬ before.head?.any comparisonMarks.contains then
      let compound := before.head?.any arithmeticMarks.contains
      let target := if compound then before.tail else before
      some { target := Text.trim target.reverse, value := trimStatement rest, compound }
    else assignmentFrom? (c :: before) rest

/-- Splits a line at the first equals sign that assigns. -/
def splitAssignment? (line : Text) : Option Assignment := assignmentFrom? [] line

/-- What `new` is asked for: `new Point(1, 2)` asks for `Point(1, 2)`. -/
def newExpression? (text : Text) : Option Text := do
  let rest ← text.trim.afterStart? "new"
  if rest.head?.any isBlank then some rest.trim else none

/-- What `std::move` or `move` is applied to. -/
def movedFrom? (text : Text) : Option Text := do
  let text := text.trim
  let inner ← text.afterStart? "std::move(" <|> text.afterStart? "move("
  let inner ← inner.beforeEnd? ")"
  some inner.trim

/-- `nullptr`, `NULL` or a literal zero. -/
def isNullLiteral (text : Text) : Bool :=
  ["nullptr", "NULL", "0"].any fun literal => literal.toList = text.trim

end MemoryTrace.Script
