import MemoryTrace.Script.CodeLine
import MemoryTrace.Session.Basic

namespace MemoryTrace

open Script

/-- Whether the line begins with one of these tokens. -/
def firstTokenIs (words : List String) (line : Text) : Bool :=
  (tokens line).head?.any fun token => words.any (·.toList = token)

/-- A declaration such as `struct Point p;` ends with a semicolon and opens no brace, so it is no header. -/
def isClassHeader (line : Text) : Bool :=
  firstTokenIs ["class", "struct"] line && (line.contains '{' || !line.contains ';')

/-- Whether the line is the header of `main`. Its parenthesis may follow behind a blank. -/
def isEntryFunction (line : Text) : Bool :=
  match tokens line with
  | type :: name :: more =>
    (type = "int".toList || type = "void".toList) &&
      (name.startsWith "main(" || name = "main".toList && more.head?.any (·.startsWith "("))
  | _ => false

/-- Whether the line deletes a pointer, or an array by one. -/
def isDelete (line : Text) : Bool :=
  (tokens line).head?.any fun token => token = "delete".toList || Text.startsWith "delete[" token

/-- Whether the line assigns what `new` makes. -/
def assignsNew (line : Text) : Bool :=
  (splitAssignment? line).any fun a => !a.compound && (newExpression? a.value).isSome

/-- Class definitions come before everything, so that members are never taken for variables. Braces count
outside `main` too. An initialiser with `new` comes before the smart pointers, and those before plain
assignments and declarations. -/
def Session.classify (s : Session) (line : Text) : Except Crash StatementKind :=
  if s.openClass.isNone && isClassHeader line then .ok .classHeader
  else if s.openClass.isSome then .ok .classBody
  else if !s.inMain && isEntryFunction line then .ok .entryFunction
  else if firstTokenIs ["return"] line then .ok .returning
  else if line.head? = some '}' && line.getLast? = some '{' then .ok .scopeReenter
  else if line.head? = some '}' then .ok .scopeClose
  else if line.getLast? = some '{' then .ok .scopeOpen
  else if !s.inMain then .ok .outsideFunction
  else if isDelete line then .ok .delete
  else if !mentionsSmartPointer line && assignsNew line then .ok .declareWithNew
  else if mentionsSmartPointer line then .ok .smartPointer
  else if (splitAssignment? line).isSome then .ok .assignment
  else
    match readDeclaration line with
    | .ok _ => .ok .declaration
    | .error .unreadable => .ok .unrecognized
    | .error (.crash c) => .error c

end MemoryTrace
