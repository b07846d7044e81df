import MemoryTrace.Proofs.Script.SmartLine

namespace MemoryTrace

open Text

namespace Script

/-- A value that the readers take as a whole. -/
structure PlainValue (value : Text) : Prop where
  solid : Bounded isMargin value
  single : ',' ∉ value
  uncommented : '/' ∉ value
  not_new : newExpression? value = none

theorem newExpression?_of_isName {name : Text} (named : isName name) :
    newExpression? name = none := by
  rw [newExpression?, trim_solid (bounded_of_isName named)]
  cases found : afterStart? "new" name with
  | none => rfl
  | some rest =>
    have whole := eq_append_of_isPrefixOf? found
    have letters : ∀ c ∈ rest, isBlank c = false := fun c member =>
      isBlank_of_isNameChar (isNameChar_of_mem named (whole ▸ List.mem_append_right _ member))
    cases rest with
    | nil => rfl
    | cons c others => simp [letters c List.mem_cons_self]

theorem PlainValue.of_isName {name : Text} (named : isName name) : PlainValue name where
  solid := bounded_of_isName named
  single := not_mem_of_isName named (by decide)
  uncommented := not_mem_of_isName named (by decide)
  not_new := newExpression?_of_isName named

section Standard

variable {name : Text} (std : name.head? = some 's') (inside : Text)

include std

/-- A value that begins like a standard name and ends with a bracket. -/
theorem solid_of_std : Bounded isMargin (name ++ (inside ++ [')'])) := by
  obtain ⟨rest, rfl⟩ := List.head?_eq_some_iff.mp std
  exact ⟨⟨'s', rest ++ (inside ++ [')']), rfl, by decide⟩, ⟨'s' :: (rest ++ inside), ')', by simp, by decide⟩⟩

theorem newExpression?_of_std : newExpression? (name ++ (inside ++ [')'])) = none := by
  rw [newExpression?, trim_solid (solid_of_std std inside)]
  obtain ⟨rest, rfl⟩ := List.head?_eq_some_iff.mp std
  rfl

theorem PlainValue.of_std (name_plain : ',' ∉ name ∧ '/' ∉ name) (plain : ',' ∉ inside ∧ '/' ∉ inside) :
    PlainValue (name ++ (inside ++ [')'])) :=
  ⟨solid_of_std std inside, by simp_all, by simp_all, newExpression?_of_std std inside⟩

end Standard

/-- A factory call begins with the factory and ends with a parenthesis. -/
theorem factoryCall_eq (kind : SmartKind) (T : Text) :
    factoryCall kind T = kind.factoryName.toList ++ ('<' :: (T ++ ['>', '(']) ++ [')']) := by
  simp [factoryCall]

theorem solid_factoryCall (kind : SmartKind) (T : Text) : Bounded isMargin (factoryCall kind T) := by
  rw [factoryCall_eq]
  exact solid_of_std (by cases kind <;> rfl) _

theorem newExpression?_factoryCall (kind : SmartKind) (T : Text) : newExpression? (factoryCall kind T) = none := by
  rw [factoryCall_eq]
  exact newExpression?_of_std (by cases kind <;> rfl) _

theorem PlainValue.factoryCall {T : Text} (primitive : IsPrimitiveWord T) (kind : SmartKind) :
    PlainValue (factoryCall kind T) := by
  have absent {c : Char} (mark : isNameChar c = false) : c ∉ T :=
    not_mem_of_isName primitive.spelled.1 mark
  rw [factoryCall_eq]
  refine .of_std (by cases kind <;> rfl) _ (by cases kind <;> decide) ?_
  simp [absent (c := ',') (by decide), absent (c := '/') (by decide)]

theorem PlainValue.moveOf {y : Text} (named : isName y) : PlainValue (moveOf y) := by
  have absent {c : Char} (mark : isNameChar c = false) : c ∉ y := not_mem_of_isName named mark
  have whole : Script.moveOf y = "std::move".toList ++ ('(' :: y ++ [')']) := rfl
  rw [whole]
  refine .of_std rfl _ (by decide) ?_
  simp [absent (c := ',') (by decide), absent (c := '/') (by decide)]

theorem SmartValue.plain {uses : Text → SmartKind} {kind : SmartKind} {value : Text}
    (smart : SmartValue uses kind value) : PlainValue value := by
  cases smart with
  | make primitive => exact .factoryCall primitive kind
  | move usable _ => exact .moveOf usable.named
  | copy usable _ _ => exact .of_isName usable.named
  | null => exact .of_isName (by decide)

theorem isFactoryCall_factoryCall (kind : SmartKind) (T : Text) :
    isFactoryCall (factoryCall kind T) := by
  cases kind <;> rfl

theorem templateArgument?_factoryCall {T : Text} (type : IsTypeText T) (kind : SmartKind) :
    templateArgument? (factoryCall kind T) = some T := by
  have absent : '<' ∉ kind.factoryName.toList := by cases kind <;> decide
  rw [templateArgument?, factoryCall, splitTemplate?_append absent type.anglesMatch ['(', ')'], type.trimmed]
  rfl

theorem not_isNullLiteral_of_mem {value : Text} (solid : Bounded isMargin value) {c : Char}
    (foreign : ["nullptr", "NULL", "0"].all fun literal => decide (c ∉ literal.toList)) (member : c ∈ value) :
    isNullLiteral value = false := by
  refine Bool.eq_false_iff.mpr fun null => ?_
  obtain ⟨literal, listed, same⟩ := List.any_eq_true.mp null
  have absent := of_decide_eq_true (List.all_eq_true.mp foreign literal listed)
  rw [of_decide_eq_true same, trim_solid solid] at absent
  exact absent member

/-- A name that names no smart pointer does not start like one. -/
theorem not_startsWith_of_untagged {name : Text} (untagged : mentionsSmartPointer name = false)
    {word : String} (tag : word ∈ ["unique_ptr", "shared_ptr", "make_unique", "make_shared"]) :
    name.startsWith word = false :=
  Bool.eq_false_iff.mpr fun starts =>
    Bool.eq_false_iff.mp untagged (List.any_eq_true.mpr ⟨word, tag, mentions_of_startsWith starts⟩)

section Untagged

variable {name : Text} (named : isName name)

include named

theorem withoutStd_of_name : withoutStd name.trimStart = name := by
  have start : trimStart name = name := by
    obtain ⟨c, rest, rfl, solid⟩ := (bounded_isBlank (bounded_of_isName named)).first
    exact trimStart_of_head solid
  have unscoped : ':' ∉ name := not_mem_of_isName named (by decide)
  rw [start, withoutStd, afterStart?_of_absent (c := ':') (by decide) unscoped]
  rfl

variable (untagged : mentionsSmartPointer name = false)

include untagged

theorem not_isFactoryCall_of_name : isFactoryCall name = false := by
  rw [isFactoryCall, withoutStd_of_name named, not_startsWith_of_untagged untagged (by decide),
    not_startsWith_of_untagged untagged (by decide), Bool.or_self]

theorem not_startsWithSmartType_of_name : startsWithSmartType name = false := by
  rw [startsWithSmartType, withoutStd_of_name named, not_startsWith_of_untagged untagged (by decide),
    not_startsWith_of_untagged untagged (by decide), Bool.or_self]

end Untagged

theorem movedFrom?_factoryCall (kind : SmartKind) (T : Text) : movedFrom? (factoryCall kind T) = none := by
  rw [movedFrom?, trim_solid (solid_factoryCall kind T)]
  cases kind <;> rfl

theorem not_isName_factoryCall (kind : SmartKind) (T : Text) :
    isName (factoryCall kind T) = false := by
  have bracket : '<' ∈ factoryCall kind T := List.mem_append_right _ List.mem_cons_self
  exact Bool.eq_false_iff.mpr fun named => not_mem_of_isName named (by decide) bracket

theorem beforeEnd?_factoryCall (kind : SmartKind) (T : Text) : beforeEnd? ".get()" (factoryCall kind T) = none := by
  simp [beforeEnd?, List.isSuffixOf?, factoryCall, cons_isPrefixOf?_cons]

theorem bracket_mem_moveOf (y : Text) : ')' ∈ moveOf y :=
  List.mem_append_right _ (List.mem_cons_of_mem _ (List.mem_append_right _ (List.mem_singleton_self _)))

theorem address_not_mem_moveOf {y : Text} (named : isName y) : '&' ∉ moveOf y := by
  intro member
  rcases List.mem_append.mp member with std | inside
  · revert std
    decide
  · rcases List.mem_cons.mp inside with mark | rest
    · contradiction
    · rcases List.mem_append.mp rest with name | bracket
      · exact not_mem_of_isName named (by decide) name
      · contradiction

theorem movedFrom?_of_name {name : Text} (named : isName name) : movedFrom? name = none := by
  have absent : '(' ∉ name := not_mem_of_isName named (by decide)
  rw [movedFrom?, trim_solid (bounded_of_isName named),
    afterStart?_of_absent (c := '(') (by decide) absent,
    afterStart?_of_absent (c := '(') (by decide) absent]
  rfl

/-- What is moved from is read from the move. -/
theorem movedFrom?_moveOf {y : Text} (named : isName y) : movedFrom? (moveOf y) = some y := by
  have starts : afterStart? "std::move(" (moveOf y) = some (y ++ [')']) :=
    List.isPrefixOf?_eq_some_iff_append_eq.mpr rfl
  have ends : beforeEnd? ")" (y ++ [')']) = some y := by
    simp [beforeEnd?, List.isSuffixOf?, nil_isPrefixOf?, cons_isPrefixOf?_cons]
  rw [movedFrom?, trim_solid (PlainValue.moveOf named).solid, starts]
  simp [ends, trim_solid (bounded_of_isName named)]

theorem splitAssignment?_of_name {x value : Text} (named : isName x) (solid : Bounded isMargin value) :
    splitAssignment? (assigned x value) = some { target := x, value, compound := false } :=
  splitAssignment?_assigned (bounded_of_isName named) (not_mem_of_isName named (by decide)) solid

/-- An assignment of a plain value assigns nothing new. -/
theorem not_assignsNew_assigned {x value : Text} (named : isName x) (plain : PlainValue value) :
    assignsNew (assigned x value) = false := by
  rw [assignsNew, splitAssignment?_of_name named plain.solid, Option.any_some, plain.not_new]
  rfl

/-- An assignment to a variable is an ordinary statement. -/
theorem ordinary_assigned {x : Text} (usable : IsVariable x) (value : Text) :
    Ordinary (assigned x value) := by
  have absent {c : Char} (mark : isNameChar c = false) : c ∉ x :=
    not_mem_of_isName usable.named mark
  refine .of_first (ne_nil_of_isName usable.named) (fun c member => ?_) ?_ ?_ ('=' :: ' ' :: value)
  · have letter := isNameChar_of_mem usable.named member
    refine ⟨Bool.eq_false_iff.mp (isBlank_of_isNameChar letter), ?_, ?_, ?_⟩
    all_goals exact ne_of_isNameChar letter (by decide)
  · exact Bool.eq_false_iff.mp (usable.not_any (by decide))
  · exact not_startsWith_of_absent (c := '[') (by decide) (absent (by decide))

theorem slash_not_mem_assigned {place value : Text} (absent : '/' ∉ place)
    (plain : PlainValue value) : '/' ∉ assigned place value := by
  simp [assigned, absent, plain.uncommented]

/-- No line of smart pointers is empty, and none has a comment. -/
theorem SmartLine.plain {uses : Text → SmartKind} {line : Text} (allowed : SmartLine uses line) :
    line ≠ [] ∧ '/' ∉ line := by
  cases allowed with
  | @declare T x primitive usable =>
    have absent : '/' ∉ declared (uses x) T x :=
      not_mem_declared (uses x) primitive usable.named (by decide) (by decide)
    exact ⟨by simp, by simpa using absent⟩
  | @init T x value primitive usable allowed =>
    have absent : '/' ∉ declared (uses x) T x :=
      not_mem_declared (uses x) primitive usable.named (by decide) (by decide)
    exact ⟨by simp [assigned], slash_not_mem_assigned absent allowed.plain⟩
  | @assign x value usable allowed =>
    have absent : '/' ∉ x := not_mem_of_isName usable.named (by decide)
    exact ⟨by simp [assigned], slash_not_mem_assigned absent allowed.plain⟩
  | openScope => decide
  | closeScope => decide

end Script

end MemoryTrace
