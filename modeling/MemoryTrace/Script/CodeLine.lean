import MemoryTrace.Text.Blank

namespace MemoryTrace.Script

/-- The line up to its first `//`. -/
def beforeLineComment (line : Text) : Text :=
  match line.around? "//" with
  | some (code, _) => code
  | none => line

/-- Removes a `//` comment and then the first `/* */` that closes. A block comment that goes on over
the next line is no comment. -/
def stripComments (line : Text) : Text :=
  let code := beforeLineComment line
  match code.around? "/*" with
  | none => code
  | some (before, inside) =>
    match inside.around? "*/" with
    | none => code
    | some (_, after) => before ++ after

/-- A line of a script that something is left of without its comments. `code` is that, trimmed. -/
structure CodeLine where
  number : Nat
  text : Text
  code : Text
  deriving DecidableEq, Repr

/-- The lines of a script, numbered from 1. -/
def numberedLines (script : Text) : List (Nat × Text) :=
  (script.lines.zipIdx 1).map fun line => (line.2, line.1)

/-- The lines of a script that have code on them, with their numbers. -/
def codeLines (script : Text) : List CodeLine :=
  (numberedLines script).filterMap fun line =>
    let code := (stripComments line.2).trim
    if code.isEmpty then none else some { number := line.1, text := line.2, code }

/-- Blanks, semicolons and braces separate tokens and belong to none. -/
def tokens (line : Text) : List Text :=
  line.fields fun c => isBlank c || c = ';' || c = '{' || c = '}'

/-- How far a line changes the depth of braces. -/
def braceBalance (line : Text) : Int := line.count '{' - line.count '}'

end MemoryTrace.Script
