import MemoryTrace.Session.Statement

namespace MemoryTrace

open Script

/-- Drops a leading `public:`, `private:` or `protected:`. -/
def withoutAccess (line : Text) : Text :=
  match ["public:", "private:", "protected:"].findSome? (line.afterStart? ·) with
  | some member => member.trim
  | none => line

/-- Whether `name(` occurs with `name` as a whole word. `atStart` tells that no name character precedes. -/
def callsFrom (name : Text) (atStart : Bool) : Text → Bool
  | [] => false
  | c :: rest =>
    (atStart && (name.isPrefixOf? (c :: rest)).any fun after => (Text.trimStart after).startsWith "(") ||
      callsFrom name (!isNameChar c) rest

/-- Whether the name stands in the line as a whole word with a parenthesis behind it. -/
def callsName (name line : Text) : Bool := callsFrom name true line

/-- How deep the braces are after a line, never below zero. -/
def depthAfter (depth : Nat) (line : Text) : Nat := (depth + braceBalance line).toNat

/-- The class after the header of a member function: inside its body, or waiting for that, or neither. -/
def OpenClass.afterHeader (o : OpenClass) (line : Text) : OpenClass :=
  if line.contains '{' then { o with methodDepth := depthAfter 0 line }
  else if !line.contains ';' then { o with awaitingBody := true }
  else o

/-- Ends the definition of the open class. Its size is told if the class is known. -/
def Session.closeClass (s : Session) (name : String) : Session :=
  let closed := { s with openClass := none }
  match s.classes.get? name with
  | some layout => closed.note (.classClosed name layout.size)
  | none => closed

/-- What is told of the class's size aside, only the class stops being open. -/
theorem Session.closeClass_eq (s : Session) (name : String) :
    ∃ notes, s.closeClass name = { s with openClass := none, notes } := by
  unfold closeClass
  dsimp only
  split <;> exact ⟨_, rfl⟩

@[simp]
theorem Session.closeClass_classes (s : Session) (name : String) : (s.closeClass name).classes = s.classes := by
  obtain ⟨notes, closed⟩ := s.closeClass_eq name
  rw [closed]

@[simp]
theorem Session.closeClass_openClass (s : Session) (name : String) : (s.closeClass name).openClass = none := by
  obtain ⟨notes, closed⟩ := s.closeClass_eq name
  rw [closed]

namespace Action

/-- What one declarator adds to a class. A member of the class's own type would never end. -/
def memberOf (className : String) (d : Declarator) : Action Member := do
  let unit ←
    if d.pointer then pure pointerSize
    else match primitiveSize? d.typeName with
      | some size => pure size
      | none =>
        if d.typeName.toName = className then fail (.recursiveClass className)
        else match (← get).class? d.typeName with
          | some layout => pure layout.size
          | none => fail (.unknownClass d.typeName.toName)
  let size ← arraySize d.name.toName unit (d.arrayLength.getD 1)
  let typeName := if d.pointer then d.typeName.toName ++ "*" else d.typeName.toName
  return { name := d.name.toName, typeName, size }

/-- A smart pointer as a member: `std::unique_ptr<Weapon> weapon`. -/
def smartMember? (text : Text) : Option Member := do
  let (_, after) ← splitTemplate? text
  let name := leadingName after.trimStart
  if name.isEmpty then none
  else
    let typeName := Text.trim (text.take (text.length - after.length))
    some { name := name.toName, typeName := typeName.toName, size := pointerSize }

/-- The members a statement declares, all of them or an error. Most statements declare none. -/
def membersOf (className : String) (text : Text) : Action (List Member) := do
  if mentionsSmartPointer text then
    return (smartMember? text).toList
  else match ← declaration? text with
    | some declarators => declarators.mapM (memberOf className)
    | none => return []

/-- Adds the members of one statement, unless the class outgrew a word. -/
def addMembers (className : String) (statement : Text) : Action Unit := do
  let members ← membersOf className (trimStatement statement)
  let size := (((← get).classes.get? className).map (·.size)).getD 0
  if size + total Member.size members ≤ largestWord then
    modify fun s => { s with classes := s.classes.modify className (members.foldl ClassLayout.addMember ·) }
  else fail (.sizeOverflow className)

/-- The text between the first opening and the last closing brace of a line. -/
def braced? (line : Text) : Option Text :=
  match line.dropWhile (· ≠ '{') with
  | [] => none
  | _ :: inside => Text.beforeLast? '}' inside

/-- Starts a class, and ends it too when both braces stand on the line. A bad member leaves the class
registered with those before it. -/
def beginClass (line : Text) : Action Unit := do
  let name := ((tokens line)[1]?.map leadingName).getD []
  if name.isEmpty then
    fail .invalidClassDeclaration
  else if ((← get).class? name).isSome then
    fail (.classRedefinition name.toName)
  else
    modify fun s => { s with classes := s.classes.set name.toName { name := name.toName } }
    note (.classOpened name.toName)
    match braced? line with
    | some members =>
      ((members.splitOnP (· = ';')).filter fun member => !(Text.trim member).isEmpty).forM (addMembers name.toName)
    | none => modify fun s => { s with openClass := some { name := name.toName } }

/-- Notes a constructor or destructor. A line that names both counts as the destructor alone. -/
def noteSpecialMember (className : String) (line : Text) : Action Unit :=
  let destructor := line.mentions ("~" ++ className)
  let constructor := !destructor && callsName className.toList line
  modify fun s => { s with
    classes := s.classes.modify className fun layout =>
      { layout with
        hasDestructor := layout.hasDestructor || destructor
        hasConstructor := layout.hasConstructor || constructor } }

/-- A line inside a class definition. Only the braces count in a member function. -/
def classBody (line : Text) : Action Unit := do
  match (← get).openClass with
  | none => return
  | some o =>
    let become (o : OpenClass) : Action Unit := modify fun s => { s with openClass := some o }
    let idle := { o with awaitingBody := false }
    let member := withoutAccess line
    if o.methodDepth > 0 then
      become { o with methodDepth := depthAfter o.methodDepth line }
    else if o.awaitingBody && line.head? = some '{' then
      become { idle with methodDepth := depthAfter 0 line }
    else if member.isEmpty || member = ['{'] then
      become idle
    else if member.head? = some '}' then
      modify (·.closeClass o.name)
    else if member.contains '(' then
      become (idle.afterHeader member)
      noteSpecialMember o.name member
    else
      become idle
      addMembers o.name member

end Action

end MemoryTrace
