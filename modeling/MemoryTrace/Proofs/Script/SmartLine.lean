import MemoryTrace.Proofs.Script.Angles
import MemoryTrace.Proofs.Script.Reading
import MemoryTrace.Session.Statement

namespace MemoryTrace

open Text

namespace Script

/-- The smart pointers there are. -/
inductive SmartKind
  | unique
  | shared
  deriving DecidableEq, Repr

namespace SmartKind

/-- The discipline of these pointers. -/
def discipline : SmartKind → Discipline
  | unique => .unique
  | shared => .shared

/-- The type of these pointers. -/
def pointerName : SmartKind → String
  | unique => "std::unique_ptr"
  | shared => "std::shared_ptr"

/-- What makes what these pointers own. -/
def factoryName : SmartKind → String
  | unique => "std::make_unique"
  | shared => "std::make_shared"

end SmartKind

/-- Keywords that a reader takes for more than a name. -/
def reservedWords : List String :=
  ["auto", "class", "const", "delete", "false", "int", "return", "static", "struct", "this", "true",
    "void", "volatile"]

/-- A name that a pointer may have. -/
structure IsVariable (x : Text) : Prop where
  named : isName x
  unreserved : ¬ reservedWords.any (·.toList = x)
  untagged : mentionsSmartPointer x = false

instance (x : Text) : Decidable (IsVariable x) :=
  decidable_of_iff (isName x ∧ ¬ reservedWords.any (·.toList = x) ∧ mentionsSmartPointer x = false)
    ⟨fun ⟨named, unreserved, untagged⟩ => ⟨named, unreserved, untagged⟩,
      fun ⟨named, unreserved, untagged⟩ => ⟨named, unreserved, untagged⟩⟩

/-- A single word for a primitive type. -/
def IsPrimitiveWord (T : Text) : Prop := primitiveSizes.any (·.1.toList = T)

instance (T : Text) : Decidable (IsPrimitiveWord T) := inferInstanceAs (Decidable (_ = true))

/-- What ends a type in one spelling or another. -/
def typeEnds : List Char := ['=', ';', '(', ')', '{', '}', '<', '>']

/-- The text of a type: a primitive, a class or neither, perhaps of several words or with an array length. -/
structure IsTypeText (T : Text) : Prop where
  nonempty : T ≠ []
  trimmed : T.trim = T
  plain : ∀ c ∈ T, c ∉ typeEnds

instance (T : Text) : Decidable (IsTypeText T) :=
  have : Decidable (∀ c ∈ T, c ∉ typeEnds) := List.decidableBAll (fun c => c ∉ typeEnds) T
  decidable_of_iff (T ≠ [] ∧ T.trim = T ∧ ∀ c ∈ T, c ∉ typeEnds)
    ⟨fun ⟨nonempty, trimmed, plain⟩ => ⟨nonempty, trimmed, plain⟩,
      fun ⟨nonempty, trimmed, plain⟩ => ⟨nonempty, trimmed, plain⟩⟩

/-- The type `std::unique_ptr<T>` or `std::shared_ptr<T>`. -/
def smartType (kind : SmartKind) (T : Text) : Text := kind.pointerName.toList ++ '<' :: (T ++ ['>'])

/-- A smart pointer with its type. -/
def declared (kind : SmartKind) (T x : Text) : Text := smartType kind T ++ ' ' :: x

/-- The value `std::make_unique<T>()` or `std::make_shared<T>()`. -/
def factoryCall (kind : SmartKind) (T : Text) : Text :=
  kind.factoryName.toList ++ '<' :: (T ++ ['>', '(', ')'])

/-- The value `std::move(y)`. -/
def moveOf (y : Text) : Text := "std::move".toList ++ '(' :: (y ++ [')'])

/-- What a pointer of this kind may be given. Only shared pointers can be copied. -/
inductive SmartValue (uses : Text → SmartKind) (kind : SmartKind) : Text → Prop
  | make {T : Text} : IsPrimitiveWord T → SmartValue uses kind (factoryCall kind T)
  | move {y : Text} : IsVariable y → uses y = kind → SmartValue uses kind (moveOf y)
  | copy {y : Text} : IsVariable y → uses y = .shared → kind = .shared → SmartValue uses kind y
  | null : SmartValue uses kind "nullptr".toList

/-- A line of a program that has no pointers but smart ones. Each name is for pointers of one
kind. -/
inductive SmartLine (uses : Text → SmartKind) : Text → Prop
  | declare {T x : Text} : IsPrimitiveWord T → IsVariable x →
      SmartLine uses (declared (uses x) T x ++ [';'])
  | init {T x value : Text} : IsPrimitiveWord T → IsVariable x → SmartValue uses (uses x) value →
      SmartLine uses (assigned (declared (uses x) T x) value)
  | assign {x value : Text} : IsVariable x → SmartValue uses (uses x) value →
      SmartLine uses (assigned x value)
  | openScope : SmartLine uses ['{']
  | closeScope : SmartLine uses ['}']

theorem IsVariable.not_any {x : Text} (usable : IsVariable x) {words : List String}
    (reserved : ∀ word ∈ words, word ∈ reservedWords) : words.any (·.toList = x) = false := by
  refine Bool.eq_false_iff.mpr fun found => usable.unreserved ?_
  obtain ⟨word, listed, same⟩ := List.any_eq_true.mp found
  exact List.any_eq_true.mpr ⟨word, reserved word listed, same⟩

theorem IsVariable.not_qualifier {x : Text} (usable : IsVariable x) :
    ¬ qualifiers.any (·.toList = x) :=
  Bool.eq_false_iff.mp (usable.not_any (by decide))

/-- A primitive word is a name, and names no smart pointer. -/
theorem IsPrimitiveWord.spelled {T : Text} (primitive : IsPrimitiveWord T) :
    isName T ∧ mentionsSmartPointer T = false := by
  obtain ⟨entry, member, same⟩ := List.any_eq_true.mp primitive
  obtain rfl := of_decide_eq_true same
  have all : primitiveSizes.all fun entry =>
      isName entry.1.toList && !mentionsSmartPointer entry.1.toList := by decide
  simpa using List.all_eq_true.mp all entry member

namespace IsTypeText

variable {T : Text}

theorem of_isName (named : isName T) : IsTypeText T where
  nonempty := ne_nil_of_isName named
  trimmed := trim_solid (bounded_of_isName named)
  plain := by
    intro c member ends
    have marks : typeEnds.all (! isNameChar ·) := by decide
    have mark := List.all_eq_true.mp marks c ends
    rw [isNameChar_of_mem named member] at mark
    contradiction

variable (type : IsTypeText T)

include type

theorem not_mem {c : Char} (ends : c ∈ typeEnds) : c ∉ T := fun member => type.plain c member ends

theorem anglesMatch : AnglesMatch T := .of_absent fun _ member =>
  ⟨fun same => type.not_mem (by decide) (same ▸ member), fun same => type.not_mem (by decide) (same ▸ member)⟩

end IsTypeText

theorem IsPrimitiveWord.isTypeText {T : Text} (primitive : IsPrimitiveWord T) : IsTypeText T :=
  .of_isName primitive.spelled.1

/-- Smart pointers are named by words, so marks keep them apart. -/
theorem mentionsSmartPointer_append_cons {c : Char} (mark : isNameChar c = false)
    (before after : Text) :
    mentionsSmartPointer (before ++ c :: after) =
      (mentionsSmartPointer before || mentionsSmartPointer after) := by
  have apart (word : String) (named : isName word.toList) : (before ++ c :: after).mentions word =
      (before.mentions word || after.mentions word) :=
    mentions_append_cons (not_mem_of_isName named mark)
  simp only [mentionsSmartPointer, List.any_cons, List.any_nil, Bool.or_false]
  rw [apart "unique_ptr" (by decide), apart "shared_ptr" (by decide), apart "make_unique" (by decide),
    apart "make_shared" (by decide)]
  ac_rfl

theorem mentionsSmartPointer_cons {c : Char} (mark : isNameChar c = false) (after : Text) :
    mentionsSmartPointer (c :: after) = mentionsSmartPointer after := by
  have split := mentionsSmartPointer_append_cons mark [] after
  simpa [mentionsSmartPointer, mentions, around?] using split

theorem mentionsSmartPointer_concat {c : Char} (mark : isNameChar c = false) (text : Text) :
    mentionsSmartPointer (text ++ [c]) = mentionsSmartPointer text := by
  rw [mentionsSmartPointer_append_cons mark]
  exact Bool.or_false _

/-- An assignment names a smart pointer where its place does or its value. -/
theorem mentionsSmartPointer_assigned (place value : Text) :
    mentionsSmartPointer (assigned place value) =
      (mentionsSmartPointer place || mentionsSmartPointer value) := by
  rw [assigned, mentionsSmartPointer_append_cons (by decide), mentionsSmartPointer_cons (by decide),
    mentionsSmartPointer_cons (by decide), mentionsSmartPointer_concat (by decide)]

theorem mentionsSmartPointer_smartType (kind : SmartKind) (T : Text) :
    mentionsSmartPointer (smartType kind T) := by
  rw [smartType, mentionsSmartPointer_append_cons (by decide), Bool.or_eq_true]
  cases kind <;> exact .inl (by decide)

theorem mentionsSmartPointer_declared (kind : SmartKind) (T x : Text) :
    mentionsSmartPointer (declared kind T x) := by
  rw [declared, mentionsSmartPointer_append_cons (by decide), mentionsSmartPointer_smartType,
    Bool.true_or]

/-- What a statement is taken for that assigns nothing. -/
def declarationKind (line : Text) : Except Crash StatementKind :=
  match readDeclaration line with
  | .ok _ => .ok .declaration
  | .error .unreadable => .ok .unrecognized
  | .error (.crash c) => .error c

/-- The first words that decide what a statement is. -/
def leadingKeywords : List String := ["class", "struct", "int", "void", "return", "delete"]

/-- A statement that starts with no keyword and ends with a semicolon. -/
structure Ordinary (line : Text) : Prop where
  first : ∃ word rest, tokens line = word :: rest ∧ ¬ leadingKeywords.any (·.toList = word) ∧
    word.startsWith "delete[" = false
  head : line.head? ≠ some '}'
  last : line.getLast? = some ';'

namespace Ordinary

variable {line : Text} (ordinary : Ordinary line)

/-- A statement is ordinary if its first word is no keyword. -/
theorem of_first {word : Text} (nonempty : word ≠ [])
    (solid : ∀ c ∈ word, ¬ isBlank c ∧ c ≠ ';' ∧ c ≠ '{' ∧ c ≠ '}')
    (plain : ¬ leadingKeywords.any (·.toList = word))
    (name_like : word.startsWith "delete[" = false) (rest : Text) :
    Ordinary (word ++ ' ' :: (rest ++ [';'])) where
  first := ⟨word, _, tokens_cons nonempty solid _, plain, name_like⟩
  head := by
    obtain ⟨c, others, rfl⟩ := List.exists_cons_of_ne_nil nonempty
    intro closes
    exact (solid c List.mem_cons_self).2.2.2 (Option.some.inj closes)
  last := by
    rw [List.getLast?_append, ← List.cons_append, List.getLast?_concat]
    rfl

include ordinary

theorem not_firstTokenIs {words : List String} (known : ∀ word ∈ words, word ∈ leadingKeywords) :
    firstTokenIs words line = false := by
  obtain ⟨word, rest, split, plain, _⟩ := ordinary.first
  rw [firstTokenIs, split]
  refine Bool.eq_false_iff.mpr fun found => plain ?_
  obtain ⟨keyword, member, same⟩ := List.any_eq_true.mp found
  exact List.any_eq_true.mpr ⟨keyword, known keyword member, same⟩

theorem not_isClassHeader : isClassHeader line = false := by
  rw [isClassHeader, ordinary.not_firstTokenIs (by decide), Bool.false_and]

theorem not_isEntryFunction : isEntryFunction line = false := by
  obtain ⟨word, rest, split, plain, _⟩ := ordinary.first
  rw [isEntryFunction, split]
  cases rest with
  | nil => rfl
  | cons name more =>
    have not_typed : ¬ (word = "int".toList ∨ word = "void".toList) := by
      rintro (rfl | rfl)
      · exact plain (by decide)
      · exact plain (by decide)
    dsimp only
    rw [← Bool.decide_or, decide_eq_false not_typed, Bool.false_and]

theorem not_isDelete : isDelete line = false := by
  obtain ⟨word, rest, split, plain, name_like⟩ := ordinary.first
  have other : word ≠ "delete".toList := by
    rintro rfl
    exact plain (by decide)
  rw [isDelete, split, List.head?_cons, Option.any_some, name_like, decide_eq_false other, Bool.or_self]

/-- No brace or keyword decides what an ordinary statement is. -/
theorem classify_outside {s : Session} (closed : s.openClass = none) (outside : s.inMain = false) :
    s.classify line = .ok .outsideFunction := by
  have no_brace : line.getLast? ≠ some '{' := by
    rw [ordinary.last]
    decide
  have no_return : firstTokenIs ["return"] line = false := ordinary.not_firstTokenIs (by decide)
  rw [Session.classify, closed, ordinary.not_isClassHeader, ordinary.not_isEntryFunction, no_return, outside]
  simp [ordinary.head, no_brace]

/-- Inside `main` the value and the names in an ordinary statement decide what it is. -/
theorem classify_inside {s : Session} (closed : s.openClass = none) (inside : s.inMain) :
    s.classify line =
      if !mentionsSmartPointer line && assignsNew line then .ok .declareWithNew
      else if mentionsSmartPointer line then .ok .smartPointer
      else if (splitAssignment? line).isSome then .ok .assignment
      else declarationKind line := by
  have no_brace : line.getLast? ≠ some '{' := by
    rw [ordinary.last]
    decide
  have no_return : firstTokenIs ["return"] line = false := ordinary.not_firstTokenIs (by decide)
  rw [Session.classify, closed, ordinary.not_isClassHeader, ordinary.not_isDelete, no_return, inside]
  simp only [ordinary.head, no_brace, Option.isNone_none, Option.isSome_none, Bool.not_true, Bool.and_false,
    Bool.false_and, decide_false, Bool.false_eq_true, if_false]
  rfl

/-- With a smart pointer or an assignment in it, an ordinary statement is told by those, in `main` and outside. -/
theorem classify {s : Session} (closed : s.openClass = none)
    (shape : mentionsSmartPointer line ∨ assignsNew line = false ∧ (splitAssignment? line).isSome) :
    s.classify line =
      .ok (if !s.inMain then .outsideFunction
        else if mentionsSmartPointer line then .smartPointer else .assignment) := by
  cases inside : s.inMain with
  | false => exact ordinary.classify_outside closed inside
  | true =>
    rw [ordinary.classify_inside closed inside]
    rcases shape with tagged | ⟨not_new, splits⟩
    · simp [tagged]
    · cases tagged : mentionsSmartPointer line <;> simp [not_new, splits]

/-- Whether or not the value is a `new` expression, an assignment is one. -/
theorem classify_assigning {s : Session} (closed : s.openClass = none) (inside : s.inMain)
    (untagged : mentionsSmartPointer line = false) (splits : (splitAssignment? line).isSome) :
    ∃ kind, s.classify line = .ok kind ∧ (kind = .declareWithNew ∨ kind = .assignment) := by
  rw [ordinary.classify_inside closed inside, untagged, splits]
  cases assignsNew line with
  | true => exact ⟨.declareWithNew, rfl, .inl rfl⟩
  | false => exact ⟨.assignment, rfl, .inr rfl⟩

end Ordinary

section Declared

variable (kind : SmartKind) {T x : Text}

theorem mem_smartType (primitive : IsPrimitiveWord T) {c : Char} (member : c ∈ smartType kind T) :
    isNameChar c ∨ c ∈ [':', '<', '>'] := by
  rw [smartType, List.mem_append, List.mem_cons, List.mem_append, List.mem_singleton] at member
  rcases member with prefixed | rfl | typed | rfl
  · have all : kind.pointerName.toList.all fun c => isNameChar c || c ∈ [':', '<', '>'] := by
      cases kind <;> decide
    simpa using List.all_eq_true.mp all c prefixed
  · exact .inr (by decide)
  · exact .inl (isNameChar_of_mem primitive.spelled.1 typed)
  · exact .inr (by decide)

theorem not_mem_smartType (primitive : IsPrimitiveWord T) {mark : Char}
    (unnamed : isNameChar mark = false) (foreign : mark ∉ [':', '<', '>']) :
    mark ∉ smartType kind T := by
  intro member
  rcases mem_smartType kind primitive member with letter | known
  · exact ne_of_isNameChar letter unnamed rfl
  · exact foreign known

theorem not_mem_declared (primitive : IsPrimitiveWord T) (named : isName x) {mark : Char}
    (unnamed : isNameChar mark = false) (foreign : mark ∉ [' ', ':', '<', '>']) :
    mark ∉ declared kind T x := by
  obtain ⟨no_blank, no_mark⟩ := List.ne_and_not_mem_of_not_mem_cons foreign
  intro member
  rw [declared, List.mem_append, List.mem_cons] at member
  rcases member with typed | blank | last
  · exact not_mem_smartType kind primitive unnamed no_mark typed
  · exact no_blank blank
  · exact not_mem_of_isName named unnamed last

theorem sign_not_mem_declared (inside : '=' ∉ T) (outside : '=' ∉ x) : '=' ∉ declared kind T x := by
  have prefixed : '=' ∉ kind.pointerName.toList := by cases kind <;> decide
  simp [declared, smartType, prefixed, inside, outside]

theorem ordinary_declared (T x : Text) : Ordinary (declared kind T x ++ [';']) where
  first := by
    have solid : ∀ c ∈ kind.pointerName.toList, ¬ isBlank c ∧ c ≠ ';' ∧ c ≠ '{' ∧ c ≠ '}' := fun c member => by
      have all : kind.pointerName.toList.all fun c => !isBlank c && c ≠ ';' && c ≠ '{' && c ≠ '}' := by
        cases kind <;> decide
      simpa [and_assoc] using List.all_eq_true.mp all c member
    obtain ⟨more, others, split⟩ :=
      tokens_append (by cases kind <;> decide) solid ('<' :: (T ++ '>' :: ' ' :: (x ++ [';'])))
    refine ⟨_, others, by simpa [declared, smartType] using split, fun known => ?_, by cases kind <;> rfl⟩
    obtain ⟨keyword, listed, same⟩ := List.any_eq_true.mp known
    have unscoped : leadingKeywords.all fun keyword => decide (':' ∉ keyword.toList) := by decide
    have absent := of_decide_eq_true (List.all_eq_true.mp unscoped keyword listed)
    have colon : ':' ∈ kind.pointerName.toList := by cases kind <;> decide
    rw [of_decide_eq_true same] at absent
    exact absent (List.mem_append_left more colon)
  head := by cases kind <;> exact (nomatch ·)
  last := List.getLast?_concat

/-- An initialiser behind a name belongs to what follows the type. -/
theorem assigned_declared (T x value : Text) :
    assigned (declared kind T x) value = declared kind T (x ++ ' ' :: '=' :: ' ' :: value) ++ [';'] := by
  simp [assigned, declared]

theorem declared_solid (solid : Bounded isMargin x) : Bounded isMargin (declared kind T x) := by
  have all : kind.pointerName.toList.all fun c => !isMargin c := by cases kind <;> decide
  have begins : Bounded isMargin kind.pointerName.toList := by
    refine .of_all (by cases kind <;> decide) fun c member => ?_
    simpa using List.all_eq_true.mp all c member
  have whole := begins.join solid ('<' :: (T ++ ['>', ' ']))
  simpa [declared, smartType] using whole

theorem stripQualifiers_declared (T x : Text) :
    stripQualifiers (declared kind T x) = declared kind T x := by
  obtain ⟨rest, starts⟩ : ∃ rest, declared kind T x = "std".toList ++ ':' :: rest := by
    cases kind <;> exact ⟨_, rfl⟩
  rw [starts]
  refine stripQualifiers_of_name (by decide) (by decide) ?_
  rintro c ⟨⟩
  decide

theorem startsWithSmartType_declared (T x : Text) : startsWithSmartType (declared kind T x) := by
  cases kind <;> rfl

theorem splitTemplate?_declared (angles : AnglesMatch T) (x : Text) :
    splitTemplate? (declared kind T x) = some (T.trim, ' ' :: x) := by
  have absent : '<' ∉ kind.pointerName.toList := by cases kind <;> decide
  simpa [declared, smartType] using splitTemplate?_append absent angles (' ' :: x)

/-- What stands in front of the declared name is the smart type. -/
theorem take_declared (T x : Text) :
    (declared kind T x).take ((declared kind T x).length - (' ' :: x).length) =
      smartType kind T := by
  rw [declared, List.length_append, Nat.add_sub_cancel, List.take_left]

end Declared

/-- Neither the angle brackets nor marks behind them are part of a word. -/
theorem mentions_template {word : String} (named : isName word.toList) (before T : Text) {after : Text}
    (marks : after.all (! isNameChar ·)) :
    mentions word (before ++ '<' :: (T ++ '>' :: after)) = (mentions word before || mentions word T) := by
  obtain ⟨c, rest, spelled, start, _⟩ := isName_cons named
  have foreign : c ∉ after := fun member => by
    have mark := List.all_eq_true.mp marks c member
    rw [isNameChar_of_isNameStart start] at mark
    contradiction
  have there : c ∈ word.toList := spelled ▸ List.mem_cons_self
  rw [mentions_append_cons (not_mem_of_isName named (by decide)),
    mentions_append_cons (not_mem_of_isName named (by decide)), not_mentions_of_absent there foreign, Bool.or_false]

/-- What a smart type or a factory call tells of the discipline. A type inside that names a unique pointer prevails. -/
theorem disciplineOf_template {word : String} {kind : SmartKind}
    (tells : word = kind.pointerName ∨ word = kind.factoryName) (T : Text) {after : Text}
    (marks : after.all (! isNameChar ·)) : disciplineOf (word.toList ++ '<' :: (T ++ '>' :: after)) =
      if disciplineOf T = .unique then .unique else kind.discipline := by
  have asks (tag : String) (named : isName tag.toList) := mentions_template named word.toList T marks
  rw [disciplineOf, asks "unique_ptr" (by decide), asks "make_unique" (by decide), asks "shared_ptr" (by decide),
    asks "make_shared" (by decide), disciplineOf]
  cases mentions "unique_ptr" T <;> cases mentions "make_unique" T <;> cases mentions "shared_ptr" T <;>
    cases mentions "make_shared" T <;> cases kind <;> rcases tells with rfl | rfl <;> decide

theorem disciplineOf_smartType (kind : SmartKind) (T : Text) :
    disciplineOf (smartType kind T) = if disciplineOf T = .unique then .unique else kind.discipline :=
  disciplineOf_template (.inl rfl) T rfl

theorem disciplineOf_factoryCall (kind : SmartKind) (T : Text) :
    disciplineOf (factoryCall kind T) = if disciplineOf T = .unique then .unique else kind.discipline :=
  disciplineOf_template (.inr rfl) T (by decide)

/-- A primitive word names no pointer, so the outer type decides. -/
theorem IsPrimitiveWord.disciplineOf_smartType {T : Text} (primitive : IsPrimitiveWord T) (kind : SmartKind) :
    disciplineOf (smartType kind T) = kind.discipline := by
  have untagged := primitive.spelled.2
  simp only [mentionsSmartPointer, List.any_cons, List.any_nil, Bool.or_false, Bool.or_eq_false_iff] at untagged
  rw [Script.disciplineOf_smartType, disciplineOf, untagged.1, untagged.2.1, untagged.2.2.1, untagged.2.2.2]
  rfl

end Script

end MemoryTrace
