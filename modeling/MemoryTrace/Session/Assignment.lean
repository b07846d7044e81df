import MemoryTrace.Session.Basic

namespace MemoryTrace

open Script

/-- The length in `int[4]`, where it is a number. -/
def elementCount? (typeText : Text) : Option Nat :=
  match typeText.dropWhile (· ≠ '[') with
  | [] => none
  | _ :: inside => Text.word? (Text.trim (inside.takeWhile (· ≠ ']')))

namespace Action

/-- A new pointer with its name. -/
def bindPointer (name : Text) (discipline : Discipline) (pointee : Option ClassLayout) : Action BlockId := do
  let id ← create (·.createPointer name.toName discipline pointee)
  bindName name id
  return id

/-- The name denotes a new pointer that shares what `source` points to. -/
def bindSharedCopy (source : BlockId) (name : Text) : Action Unit := do
  match (← get).memory.copyShared source name.toName with
  | .ok (id, memory) =>
    modify fun s => { s with memory }
    bindName name id
  | .error e => fail (.rejected e)

/-- The pointer a text names, possibly inside `std::move` or in front of `.get()`, and whether it is moved
from. A text that is no single name names none, and neither does the name of something else; but a name
that denotes nothing live is an error. -/
def pointerSource? (text : Text) : Action (Option (BlockId × Bool)) := do
  let named := (movedFrom? text).getD text.trim
  let name := (named.beforeEnd? ".get()").getD named
  if !isName name || ["true", "false", "this"].any (·.toList = name) then
    return none
  else
    let id ← lookup name
    return if ((← get).pointer? id).isSome then some (id, (movedFrom? text).isSome) else none

/-- The heap block for `new T`, `new T(...)`, `new T[n]` or a factory's argument. It is named for the pointer
it is made for, with a star. -/
def allocatePointee (typeText : Text) (discipline : Discipline) (owner : Text) : Action BlockId := do
  let base := baseType typeText
  let name := "*" ++ owner.toName
  match primitiveSize? base, (← get).class? base with
  | some unit, _ =>
    let size ← arraySize name unit ((elementCount? typeText).getD 1)
    create (·.allocate name size discipline)
  | none, some layout =>
    match elementCount? typeText with
    | some count =>
      let size ← arraySize name layout.size count
      create (·.allocate name size discipline)
    | none => create (·.allocateObject name layout discipline)
  | none, none => fail (.unknownClass base.toName)

/-- Points `id` at `target`. A unique pointer frees what it owned before. -/
def reseat (id : BlockId) (target : Option BlockId) : Action Unit := do
  let s ← get
  let owned := if s.discipline? id = some .unique then s.target? id else none
  attempt (·.deallocateIfAny (owned.filter (some · ≠ target)))
  attempt (·.assignPointer id target)

/-- `dest = source` between pointers, or `dest = std::move(source)`. Copying a shared pointer makes a new one
that takes over the name. Any other pair just aims `dest` where `source` points. -/
def assignFrom (dest : BlockId) (destName : Text) (source : BlockId) (moved : Bool) : Action Unit := do
  if source = dest then
    return
  else
    let s ← get
    match s.discipline? dest, s.discipline? source, moved with
    | some .unique, some .unique, true => attempt (·.moveUnique source dest)
    | some .shared, some .shared, true =>
      attempt (·.assignPointer dest (s.target? source))
      attempt (·.assignPointer source none)
    | some .shared, some .shared, false =>
      attempt (·.assignPointer dest none)
      bindSharedCopy source destName
    | _, _, _ => attempt (·.assignPointer dest (s.target? source))

/-- Points the pointer `id`, known as `name`, at whatever `value` denotes. A value that denotes nothing
known leaves it alone. -/
def storePointer (id : BlockId) (name value : Text) : Action Unit := do
  let value := value.trim
  let discipline := ((← get).discipline? id).getD .raw
  if isNullLiteral value then
    reseat id none
  else match newExpression? value with
    | some typeText =>
      let target ← allocatePointee typeText discipline name
      reseat id (some target)
    | none =>
      if isFactoryCall value then
        match templateArgument? value with
        | some typeText =>
          let target ← allocatePointee typeText discipline name
          reseat id (some target)
        | none => fail (.invalidDeclaration value.toName)
      else match value.afterStart? "&" with
        | some place =>
          let target ← lookup (baseName place)
          attempt (·.assignPointer id (some target))
        | none =>
          match ← pointerSource? value with
          | some (source, moved) => assignFrom id name source moved
          | none => note (.unmodelledValue value.toName)

/-- An assignment. Values are not modelled, so writing through or into anything but a pointer only needs
its name to be live. -/
def assign (target value : Text) (compound : Bool) : Action Unit := do
  if compound || isIndirect target then
    if (baseName target).isEmpty then
      return
    else
      discard <| lookup (baseName target)
  else if !isName target then
    note (.unmodelledTarget target.toName)
  else
    let id ← lookup target
    if ((← get).pointer? id).isSome then
      storePointer id target value

end Action

end MemoryTrace
