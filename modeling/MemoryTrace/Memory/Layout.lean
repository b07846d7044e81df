import MemoryTrace.Text.Number

namespace MemoryTrace

/-- One data member of a class. -/
structure Member where
  name : String
  typeName : String
  size : Nat
  deriving DecidableEq, Repr

/-- A class is laid out without padding: its size is the sum of its members' sizes, saturating. -/
structure ClassLayout where
  name : String
  members : List Member := []
  size : Nat := 0
  hasConstructor : Bool := false
  hasDestructor : Bool := false
  deriving DecidableEq, Repr

namespace ClassLayout

/-- Adds a member behind those that are there. -/
def addMember (layout : ClassLayout) (member : Member) : ClassLayout :=
  { layout with members := layout.members ++ [member], size := saturate (layout.size + member.size) }

/-- The first member of that name. -/
def member? (layout : ClassLayout) (name : String) : Option Member :=
  layout.members.find? (·.name = name)

end ClassLayout

end MemoryTrace
