import MemoryTrace.Memory.Basic
import MemoryTrace.Script.Declaration

namespace MemoryTrace

/-- Why a line cannot be run. A line that means nothing here is ignored and is no error. -/
inductive Cause
  | undefinedVariable (name : String)
  | notAPointer (name : String)
  | nullDelete (name : String)
  | invalidDelete
  | unknownClass (name : String)
  | invalidClassDeclaration
  | classRedefinition (name : String)
  | recursiveClass (name : String)
  | invalidDeclaration (text : String)
  | outOfScope (name : String)
  | sizeOverflow (name : String)
  | missingVariableName
  | unexpectedScopeEnd
  | rejected (error : MemoryError)
  deriving DecidableEq, Repr

/-- The text of a cause, as it follows the line number. -/
def Cause.message : Cause → String
  | undefinedVariable name => s!"undefined variable '{name}'"
  | notAPointer name => s!"'{name}' is not a pointer"
  | nullDelete name => s!"cannot delete '{name}': pointer is null or dangling"
  | invalidDelete => "delete needs a variable name"
  | unknownClass name => s!"unknown class '{name}'"
  | invalidClassDeclaration => "invalid class declaration"
  | classRedefinition name => s!"class '{name}' is already defined"
  | recursiveClass name => s!"class '{name}' cannot contain itself"
  | invalidDeclaration text => s!"invalid declaration: {text}"
  | outOfScope name => s!"'{name}' is out of scope"
  | sizeOverflow name => s!"size of '{name}' does not fit in memory"
  | missingVariableName => "missing variable name"
  | unexpectedScopeEnd => "unexpected scope end"
  | rejected error => error.message

/-- An error of the script and the line it is on. -/
structure ScriptError where
  line : Nat
  cause : Cause
  deriving DecidableEq, Repr

/-- The text of an error, which begins with its line. -/
def ScriptError.message (e : ScriptError) : String := s!"Line {e.line}: {e.cause.message}"

/-- What stops a run: an error of the script, or a crash of the run itself. -/
inductive Failure
  | script (error : ScriptError)
  | crash (crash : Script.Crash)
  deriving DecidableEq, Repr

end MemoryTrace
