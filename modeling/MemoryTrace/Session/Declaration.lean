import MemoryTrace.Session.Assignment

namespace MemoryTrace

open Script

namespace Action

/-- Creates the stack block of one declarator and binds its name. A type that is neither primitive nor a
known class is not modelled: it declares nothing, unless it is asked to be allocated. -/
def declare (d : Declarator) : Action (Option BlockId) := do
  let name := d.name.toName
  let array (unit count : Nat) : Action BlockId := do
    let size ← arraySize name unit count
    create (·.createVariable name size)
  let bound (id : BlockId) : Action (Option BlockId) := do
    bindName d.name id
    return some id
  let s ← get
  match d.pointer, primitiveSize? d.typeName, s.class? d.typeName, d.arrayLength with
  | true, _, _, some count => bound (← array pointerSize count)
  | true, _, pointee, none => bound (← create (·.createPointer name .raw pointee))
  | false, some unit, _, count => bound (← array unit (count.getD 1))
  | false, none, some layout, some count => bound (← array layout.size count)
  | false, none, some layout, none => bound (← create (·.createObject name layout))
  | false, none, none, _ =>
    if (d.init.bind newExpression?).isSome then
      fail (.unknownClass d.typeName.toName)
    else
      note (.unmodelledType d.typeName.toName name)
      return none

/-- `auto name = init`, where the initialiser decides what is declared. -/
def declareAuto (name init : Text) : Action Unit := do
  let s ← get
  match newExpression? init with
  | some typeText =>
    let id ← bindPointer name .raw (s.class? (baseType typeText))
    storePointer id name init
  | none =>
    if init.startsWith "&" then
      let id ← bindPointer name .raw none
      storePointer id name init
    else match ← pointerSource? init with
      | some (source, moved) =>
        let pointer := (s.pointer? source).getD { discipline := .raw }
        if pointer.discipline = .shared ∧ ¬ moved then
          bindSharedCopy source name
        else
          let id ← bindPointer name pointer.discipline pointer.pointee
          assignFrom id name source moved
      | none =>
        let copied := ((s.named? init).bind s.memory.block?).map (·.size)
        let id ← create (·.createVariable name.toName (copied.getD (literalSize init)))
        bindName name id

/-- One declarator of a declaration, with its initialiser if that matters. -/
def declareOne (d : Declarator) : Action Unit := do
  if d.typeName = "auto".toList then
    declareAuto d.name ((d.init.map Text.trim).getD [])
  else match ← declare d, d.init with
    | some id, some init =>
      if ((← get).pointer? id).isSome then
        storePointer id d.name init
    | _, _ => return

/-- A smart pointer with its initialiser. Copying a shared pointer makes the new stack block itself. -/
def declareSmart (name : Text) (discipline : Discipline) (pointee : Text) (init : Option Text) : Action Unit := do
  let pointee := (← get).class? (baseType pointee)
  match (init.map Text.trim).filter fun init => !init.isEmpty && !isNullLiteral init with
  | none => discard <| bindPointer name discipline pointee
  | some init =>
    match ← pointerSource? init with
    | some (source, moved) =>
      if discipline = .shared ∧ ¬ moved ∧ (← get).discipline? source = some .shared then
        bindSharedCopy source name
      else
        let id ← bindPointer name discipline pointee
        assignFrom id name source moved
    | none =>
      let id ← bindPointer name discipline pointee
      storePointer id name init

/-- A declaration or, where the line is none, an assignment. -/
def assignment (line : Text) : Action Unit := do
  match ← declaration? line, splitAssignment? line with
  | some declarators, _ => declarators.forM declareOne
  | none, some a => assign a.target a.value a.compound
  | none, none => return

/-- Declares the variables of a line one by one. The first that cannot be declared ends the line. -/
def declaration (line : Text) : Action Unit := do
  match ← declaration? line with
  | some declarators => declarators.forM declareOne
  | none => return

/-- The text between two characters that enclose it. -/
def enclosed? (opening closing : Char) : Text → Option Text
  | [] => none
  | c :: inside => if c = opening ∧ inside.getLast? = some closing then some inside.dropLast else none

/-- The initialiser in parentheses or braces behind a name. -/
def directInit? (tail : Text) : Option Text :=
  (enclosed? '(' ')' tail).orElse fun _ => enclosed? '{' '}' tail

/-- A line that mentions a smart pointer: a declaration of that type, an `auto`, or an assignment. -/
def smartPointer (line : Text) : Action Unit := do
  let (place, init) := match (splitAssignment? line).filter (!·.compound) with
    | some a => (a.target, some a.value)
    | none => (trimStatement line, none)
  let declared := stripQualifiers place
  if startsWithSmartType declared then
    match splitTemplate? declared with
    | none => fail (.invalidDeclaration line.toName)
    | some (pointee, after) =>
      let type := declared.take (declared.length - after.length)
      let named := after.trimStart
      let name := leadingName named
      if name.isEmpty then
        fail .missingVariableName
      else
        declareSmart name (disciplineOf type) pointee (init.orElse fun _ => directInit? (afterName named).trim)
  else if leadingName declared = "auto".toList then
    let name := leadingName (Text.trimStart (afterName declared))
    if name.isEmpty then
      fail .missingVariableName
    else match init with
      | none => fail (.invalidDeclaration line.toName)
      | some init => declareSmart name (disciplineOf init) ((templateArgument? init).getD []) (some init)
  else match init with
    | some init => assign place init false
    | none => note .unmodelledExpression

end Action

end MemoryTrace
