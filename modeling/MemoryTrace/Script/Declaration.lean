import MemoryTrace.Script.TypeName

namespace MemoryTrace.Script

/-- Words that may precede a type and change nothing here. -/
def qualifiers : List String := ["const", "static", "struct", "class", "volatile"]

/-- What follows a leading qualifier, which a blank must end. -/
def afterQualifier? (text : Text) : Option Text :=
  if qualifiers.any (·.toList = leadingName text) && (afterName text).head?.any isBlank then
    some (afterName text)
  else none

theorem afterQualifier?_length {text after : Text} (found : afterQualifier? text = some after) :
    after.length < text.length := by
  unfold afterQualifier? at found
  split at found
  · rename_i qualified
    obtain rfl := Option.some.inj found
    refine afterName_length_lt fun empty => ?_
    simp [qualifiers, empty] at qualified
  · contradiction

theorem trimStart_length (text : Text) : text.trimStart.length ≤ text.length :=
  (List.dropWhile_sublist _).length_le

/-- The text behind all leading qualifiers. -/
def stripQualifiers (text : Text) : Text :=
  match _ : afterQualifier? text.trimStart with
  | some after => stripQualifiers after
  | none => text.trimStart
termination_by text.length
decreasing_by
  rename_i found
  exact Nat.lt_of_lt_of_le (afterQualifier?_length found) (trimStart_length text)

/-- One declared name: `*p[4] = init` with its type. -/
structure Declarator where
  typeName : Text
  name : Text
  pointer : Bool := false
  arrayLength : Option Nat := none
  init : Option Text := none
  deriving DecidableEq, Repr

/-- A scan that would have to cut a character in two cannot go on. -/
inductive Crash
  | insideCharacter
  deriving DecidableEq, Repr

/-- Why a text is not read as a declaration. -/
inductive DeclarationFault
  | unreadable
  | crash (crash : Crash)
  deriving DecidableEq, Repr

/-- What may follow the name being declared. -/
def nameEnds : List Char := ['=', ',', ';', '(', '[']

/-- The next word of a type of several primitive words, with the text behind it. The last word before
the end, or before what ends a name, is not a type word: it is the name being declared. -/
def nextTypeWord? (text : Text) : Option (Text × Text) :=
  let text := text.trimStart
  let word := leadingName text
  let goesOn := (afterName text).trimStart.head?.any fun c => !(nameEnds.contains c)
  if isPrimitive word && goesOn then some (word, afterName text) else none

theorem nextTypeWord?_length {text word after : Text} (found : nextTypeWord? text = some (word, after)) :
    after.length < text.length := by
  unfold nextTypeWord? at found
  simp only at found
  split at found
  · rename_i primitive
    obtain ⟨rfl, rfl⟩ := Prod.mk.inj (Option.some.inj found)
    refine Nat.lt_of_lt_of_le (afterName_length_lt fun empty => ?_) (trimStart_length text)
    rw [empty] at primitive
    simp [isPrimitive, primitiveSize?, Text.words, Text.fields] at primitive
  · contradiction

/-- Joins the words of a primitive type by single spaces. -/
def joinTypeWords (typeName text : Text) : Text × Text :=
  match _ : nextTypeWord? text with
  | some (word, after) => joinTypeWords (typeName ++ ' ' :: word) after
  | none => (typeName, text)
termination_by text.length
decreasing_by
  rename_i found
  exact nextTypeWord?_length found

/-- How much deeper the text behind a character is nested. Depths are unbounded here. Counted in 32 bits they are the
same as long as their absolute values stay below 2^31. -/
def nesting (c : Char) : Int :=
  if c = '(' ∨ c = '[' ∨ c = '<' then 1 else if c = ')' ∨ c = ']' ∨ c = '>' then -1 else 0

/-- The pieces between the commas at depth zero. The depth may go below zero and come back. It is an unbounded integer
here, and the pieces are those of a count in 32 bits as long as its absolute value stays below 2^31. -/
def topLevelPieces (depth : Int) : Text → List Text
  | [] => [[]]
  | c :: rest =>
    if c = ',' ∧ depth = 0 then [] :: topLevelPieces depth rest
    else (topLevelPieces (depth + nesting c) rest).modifyHead (c :: ·)

/-- Cuts off the stars and blanks in front of a name. The run is counted in characters and cut in bytes,
so where it holds a longer blank the cut comes early, or falls inside that blank. -/
def cutStars (text : Text) : Except DeclarationFault (Text × Text) :=
  match text.splitAtByte? (text.takeWhile fun c => c = '*' || isBlank c).length with
  | some sides => .ok sides
  | none => .error (.crash .insideCharacter)

/-- What follows a declared name is nothing, constructor arguments or an array length. -/
def declaredLength (tail : Text) : Except DeclarationFault (Option Nat) :=
  match tail with
  | [] => .ok none
  | '(' :: _ => .ok none
  | '[' :: dimension =>
    match Text.word? (Text.trim (dimension.takeWhile (· ≠ ']'))) with
    | some length => .ok (some length)
    | none => .error .unreadable
  | _ => .error .unreadable

/-- Reads what stands before an initialiser: stars, a name and perhaps a length. -/
def Declarator.ofPlace (typeName place : Text) (init : Option Text) : Except DeclarationFault Declarator := do
  let (stars, named) ← cutStars place
  let named := Text.trimStart (named.dropWhile (· = '&'))
  let name := leadingName named
  if name.isEmpty then throw .unreadable
  else
    let length ← declaredLength (Text.trim (afterName named))
    return { typeName, name, pointer := stars.contains '*', arrayLength := length, init }

/-- A compound assignment declares nothing. -/
def Declarator.read (typeName piece : Text) : Except DeclarationFault Declarator :=
  match splitAssignment? piece with
  | some a => if a.compound then .error .unreadable else ofPlace typeName a.target (some a.value)
  | none => ofPlace typeName piece.trim none

/-- The type a declaration starts with, and the text behind it. -/
def leadingType? (text : Text) : Option (Text × Text) :=
  let first := leadingName text
  if first.isEmpty then none
  else if isPrimitive first then some (joinTypeWords first (afterName text))
  else some (first, afterName text)

/-- Reads `T a`, `const T *p`, `T a = 1, *b` or `T v[4]`. Every declarator must be readable, and the first
that is not decides how the reading fails. -/
def readDeclaration (text : Text) : Except DeclarationFault (List Declarator) :=
  match leadingType? (stripQualifiers (trimStatement text)) with
  | none => .error .unreadable
  | some (typeName, rest) => (topLevelPieces 0 rest).mapM (Declarator.read typeName)

end MemoryTrace.Script
