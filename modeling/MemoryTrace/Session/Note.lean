import MemoryTrace.Session.Error

namespace MemoryTrace

/-- What a line is taken for. There is no grammar: the first kind that accepts the line wins. -/
inductive StatementKind
  | classHeader
  | classBody
  | entryFunction
  | returning
  | scopeReenter
  | scopeClose
  | scopeOpen
  | outsideFunction
  | delete
  | declareWithNew
  | smartPointer
  | assignment
  | declaration
  | unrecognized
  deriving DecidableEq, Repr

/-- The name of a kind in the log. -/
def StatementKind.label : StatementKind → String
  | classHeader => "ClassHeader"
  | classBody => "ClassBody"
  | entryFunction => "EntryFunction"
  | returning => "Return"
  | scopeReenter => "ScopeReenter"
  | scopeClose => "ScopeClose"
  | scopeOpen => "ScopeOpen"
  | outsideFunction => "OutsideFunction"
  | delete => "Delete"
  | declareWithNew => "DeclareWithNew"
  | smartPointer => "SmartPointer"
  | assignment => "Assignment"
  | declaration => "Declaration"
  | unrecognized => "Unrecognized"

/-- What a run tells on the side, while memory logs its own events. -/
inductive Remark
  | running (kind : StatementKind) (code : String)
  | classOpened (name : String)
  | classClosed (name : String) (size : Nat)
  | emptyMain
  | mainEntered
  | mainLeft
  | leftScope (block : BlockId)
  | unmodelledExpression
  | unmodelledType (typeName name : String)
  | unmodelledTarget (target : String)
  | unmodelledValue (value : String)
  | failed (error : ScriptError)
  | leaked (name : String) (size : Nat)
  | notFreed (owner target : BlockId) (error : MemoryError)
  deriving DecidableEq, Repr

namespace Remark

/-- Whether the script is at fault. -/
def isWarning : Remark → Bool
  | failed _ | leaked _ _ | notFreed _ _ _ => true
  | _ => false

/-- The text of a remark that is made on this line. -/
def message (line : Nat) : Remark → String
  | running kind code => s!"line {line}: {kind.label}: {code}"
  | classOpened name => s!"class {name} opened"
  | classClosed name size => s!"class {name} closed ({size} bytes)"
  | emptyMain => s!"line {line}: entry function has an empty body"
  | mainEntered => s!"entering main at line {line}"
  | mainLeft => s!"leaving main at line {line}"
  | leftScope block => s!"line {line}: block #{block} left scope"
  | unmodelledExpression => s!"line {line}: smart pointer expression not modeled"
  | unmodelledType typeName name => s!"line {line}: type '{typeName}' is not modeled, '{name}' ignored"
  | unmodelledTarget target => s!"line {line}: assignment to '{target}' not modeled"
  | unmodelledValue value => s!"line {line}: initializer '{value}' not modeled"
  | failed error => error.message
  | leaked name size => s!"memory leak: {name} ({size} bytes)"
  | notFreed owner target error => s!"unique_ptr #{owner} could not free #{target}: {error.message}"

end Remark

/-- A remark with its place: the line that ran, and how many events were on record. -/
structure Note where
  remark : Remark
  line : Nat
  eventCount : Nat
  deriving DecidableEq, Repr

/-- The text of a note. -/
def Note.message (note : Note) : String := note.remark.message note.line

end MemoryTrace
