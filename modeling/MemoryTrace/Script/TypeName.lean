import MemoryTrace.Script.Assignment
import MemoryTrace.Text.Number
import MemoryTrace.Memory.Block

namespace MemoryTrace.Script

/-- The words of primitive types, with their sizes in bytes. -/
def primitiveSizes : List (String × Nat) :=
  [("bool", 1), ("char", 1), ("short", 2), ("int", 4), ("float", 4), ("unsigned", 4), ("signed", 4),
   ("long", 8), ("double", 8), ("size_t", 8), ("void", 0)]

/-- Standard names are known with and without their namespace. -/
def withoutStd (text : Text) : Text := (text.afterStart? "std::").getD text

/-- The size that one word stands for. -/
def keywordSize? (word : Text) : Option Nat :=
  (primitiveSizes.find? fun entry => entry.1.toList = withoutStd word).map (·.2)

/-- Of several primitive words the last decides: `unsigned char` is one byte, `long long` eight. -/
def primitiveSize? (name : Text) : Option Nat := do
  let sizes ← name.words.mapM keywordSize?
  sizes.getLast?

/-- Whether all words of the name are words of primitive types. -/
def isPrimitive (name : Text) : Bool := (primitiveSize? name).isSome

/-- The discipline of the smart pointer named anywhere in the text. One that is both unique and shared
counts as unique, and one that is neither as raw. -/
def disciplineOf (text : Text) : Discipline :=
  if text.mentions "unique_ptr" || text.mentions "make_unique" then .unique
  else if text.mentions "shared_ptr" || text.mentions "make_shared" then .shared
  else .raw

/-- Whether a smart pointer or a factory is named anywhere in the text, even inside a longer word. -/
def mentionsSmartPointer (text : Text) : Bool :=
  ["unique_ptr", "shared_ptr", "make_unique", "make_shared"].any (text.mentions ·)

/-- Whether the text begins with a factory of smart pointers. -/
def isFactoryCall (text : Text) : Bool :=
  let text := withoutStd text.trimStart
  text.startsWith "make_unique" || text.startsWith "make_shared"

/-- Whether the text begins with the type of a smart pointer. -/
def startsWithSmartType (text : Text) : Bool :=
  let text := withoutStd text.trimStart
  text.startsWith "unique_ptr" || text.startsWith "shared_ptr"

/-- The text up to the angle bracket that closes one opened before it, and the text behind that.
`nested` counts the brackets opened since. -/
def closeAngle? : Nat → Text → Option (Text × Text)
  | _, [] => none
  | nested, c :: rest =>
    let continued (nested : Nat) := (closeAngle? nested rest).map fun sides => (c :: sides.1, sides.2)
    if c = '<' then continued (nested + 1)
    else if c = '>' then
      match nested with
      | 0 => some ([], rest)
      | nested + 1 => continued nested
    else continued nested

/-- The argument between the first angle bracket and the one that closes it, and the text behind. -/
def splitTemplate? (text : Text) : Option (Text × Text) :=
  match text.dropWhile (· ≠ '<') with
  | [] => none
  | _ :: inside => (closeAngle? 0 inside).map fun sides => (sides.1.trim, sides.2)

/-- The type that a template is applied to. -/
def templateArgument? (text : Text) : Option Text := (splitTemplate? text).map (·.1)

/-- The type in `Point(1, 2)`, `int[4]` or `Point{1}`. -/
def baseType (text : Text) : Text := Text.trim (text.takeWhile fun c => c ≠ '(' && c ≠ '[' && c ≠ '{')

/-- The size of an `auto` variable that starts as this literal. Anything unknown counts as eight bytes. -/
def literalSize (text : Text) : Nat :=
  if text = "true".toList ∨ text = "false".toList ∨ text.head? = some '\'' then 1
  else if text.isInt32 then 4
  else 8

end MemoryTrace.Script
