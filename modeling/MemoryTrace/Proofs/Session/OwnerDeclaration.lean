import MemoryTrace.Proofs.Script.OwnerLine
import MemoryTrace.Proofs.Session.Outcome
import MemoryTrace.Proofs.Session.Reach
import MemoryTrace.Proofs.Session.SmartScript

namespace MemoryTrace

open Script Text

namespace Action

/-- Binds the name to a new pointer, allocates what that owns, and lets it own that. -/
def declareOwner (name : Text) (discipline : Discipline) (T : Text) : Action Unit := do
  let id ← bindPointer name discipline ((← get).class? (baseType T))
  let held := ((← get).discipline? id).getD .raw
  reseat id (some (← allocatePointee T held name))

variable {kind : SmartKind} {T x value line : Text} (type : IsTypeText T)

include type

/-- A pointer that is given a new block allocates it and owns it. -/
theorem storePointer_made (made : MakesOwned kind T value) (id : BlockId) (name : Text) :
    storePointer id name value = (do
      let held := ((← get).discipline? id).getD .raw
      reseat id (some (← allocatePointee T held name))) := by
  unfold storePointer
  simp only [trim_solid (made.solid type), made.not_null type, Bool.false_eq_true, if_false]
  rcases made.asksFor type with new | ⟨not_new, factory, argument⟩
  · simp only [new]
  · simp only [not_new, factory, argument, if_true]

theorem pointerSource?_made (made : MakesOwned kind T value) : pointerSource? value = pure none := by
  cases made with
  | factory => exact pointerSource?_factoryCall kind T
  | new =>
    have spaced : isName (newOf T) = false :=
      Bool.eq_false_iff.mpr fun named => not_mem_of_isName named (c := ' ') (by decide) (by simp [newOf])
    exact pointerSource?_of_unnamed (solid_newOf type) (movedFrom?_newOf type)
      (beforeEnd?_of_absent (c := '(') (by decide) (not_mem_newOf type (by decide))) spaced

/-- A pointer that is declared with a new block is bound, allocated for and aimed. -/
theorem declareSmart_made (made : MakesOwned kind T value) (discipline : Discipline) :
    declareSmart x discipline T (some value) = declareOwner x discipline T := by
  have solid := made.solid type
  have nonempty : value.isEmpty = false := by
    obtain ⟨c, rest, rfl, _⟩ := solid.first
    rfl
  unfold declareSmart
  simp only [Option.map_some, trim_solid solid, Option.filter_some, nonempty, made.not_null type,
    Bool.not_false, Bool.and_self, if_true, pointerSource?_made type made, pure_bind, storePointer_made type made]
  rfl

variable (named : isName x)

include named

theorem smartPointer_auto : smartPointer (assigned ("auto".toList ++ ' ' :: x) (factoryCall kind T)) =
    declareSmart x (disciplineOf (smartType kind T)) T (some (factoryCall kind T)) := by
  have keyword : isName "auto".toList := by decide
  have stop : ∀ c ∈ (' ' :: x).head?, isNameChar c = false := by
    rintro c ⟨⟩
    decide
  have no_sign : '=' ∉ "auto".toList ++ ' ' :: x := by
    have inside : '=' ∉ x := not_mem_of_isName named (by decide)
    simp [inside]
  have solid : Bounded isMargin ("auto".toList ++ ' ' :: x) :=
    (bounded_of_isName keyword).join (bounded_of_isName named) [' ']
  have splits := splitAssignment?_assigned solid no_sign (solid_factoryCall kind T)
  have behind : trimStart (' ' :: x) = x := by
    have solid := (bounded_isBlank (bounded_of_isName named)).dropWhile
    rwa [trimStart, List.dropWhile_cons_of_pos (by decide)]
  have nonempty : x.isEmpty = false := by simpa using ne_nil_of_isName named
  have no_type : startsWithSmartType ("auto".toList ++ ' ' :: x) = false := rfl
  unfold smartPointer
  rw [splits, filter_simple]
  dsimp only
  rw [stripQualifiers_of_name keyword (by decide) stop, no_type, leadingName_append keyword stop,
    afterName_append keyword stop, behind, leadingName_self named, nonempty, templateArgument?_factoryCall type,
    disciplineOf_factoryCall, ← disciplineOf_smartType]
  rfl

/-- All spellings are read alike, whatever route the reader takes. -/
theorem smartPointer_declaresOwner (declares : DeclaresOwner kind T x line) :
    smartPointer line = declareOwner x (disciplineOf (smartType kind T)) T := by
  have outside : '=' ∉ x := not_mem_of_isName named (by decide)
  cases declares with
  | @copy value made =>
    have splits := splitAssignment?_assigned (declared_solid (T := T) kind (bounded_of_isName named))
      (sign_not_mem_declared kind (type.not_mem (by decide)) outside) (made.solid type)
    rw [smartPointer_declared [] (some value) kind type.anglesMatch named nofun
      (by rw [splits, List.append_nil]; rfl) nofun, type.trimmed]
    exact declareSmart_made type made _
  | @direct tail bracketed =>
    have made : MakesOwned kind T (newOf T) := .new
    have solid : Bounded isMargin (x ++ tail) := by
      simpa using (bounded_of_isName named).join bracketed.solid []
    have no_sign : '=' ∉ declared kind T (x ++ tail) := by
      have absent := bracketed.not_mem (c := '=') (by decide) (not_mem_newOf type (by decide))
      exact sign_not_mem_declared kind (type.not_mem (by decide)) (by simp [outside, absent])
    have splits : splitAssignment? (declared kind T (x ++ tail) ++ [';']) = none :=
      splitAssignment?_of_absent (by simpa using no_sign)
    rw [smartPointer_declared tail none kind type.anglesMatch named bracketed.apart splits fun _ =>
      trimStatement_ended (declared_solid kind solid), bracketed.directInit?, type.trimmed]
    exact declareSmart_made type made _
  | auto =>
    rw [smartPointer_auto type named]
    exact declareSmart_made type .factory _

end Action

/-- Inside `main` an owner of a new `T` is declared in the same way by every spelling: by a factory call or `new`,
copied or in brackets, or by `auto`. The result is the same, and so is the session, apart from its notes. -/
theorem owner_spellings_agree {s : Session} (inside : s.inMain) (closed : s.openClass = none) {kind : SmartKind}
    {T x first second : Text} (type : IsTypeText T) (named : isName x) (one : DeclaresOwner kind T x first)
    (other : DeclaresOwner kind T x second) :
    (Action.executeLine first).outcome s = (Action.executeLine second).outcome s := by
  have taken {line : Text} (declares : DeclaresOwner kind T x line) : s.classify line = .ok .smartPointer := by
    rw [declares.ordinary.classify closed (.inl declares.tagged), inside, declares.tagged]
    rfl
  have does {line : Text} (declares : DeclaresOwner kind T x line) :
      Action.perform line .smartPointer = Action.declareOwner x (disciplineOf (smartType kind T)) T :=
    Action.smartPointer_declaresOwner type named declares
  refine Action.outcome_executeLine ?_
  rw [Action.outcome_statement (taken one), Action.outcome_statement (taken other), does other, ← does one]
  exact (Action.Local.smartPointer first).outcome_eq (Action.Blind.smartPointer first) rfl

/-- A shared array of three objects, in braces and by `auto`. -/
theorem owner_spellings_agree_of_array :
    ∃ s : Session, s.Reachable ∧ s.inMain ∧ s.openClass = none ∧ (s.class? "Point".toList).isSome ∧
      ((Action.executeLine "auto p = std::make_shared<Point[3]>();".toList).after s).memory.liveBlocks.length = 2 ∧
      (Action.executeLine "std::shared_ptr<Point[3]> p\x7bnew Point[3]\x7d;".toList).outcome s =
        (Action.executeLine "auto p = std::make_shared<Point[3]>();".toList).outcome s := by
  obtain ⟨s, reach, inside, closed, known, live⟩ : ∃ s : Session, s.Reachable ∧ s.inMain ∧ s.openClass = none ∧
      (s.class? "Point".toList).isSome ∧
      ((Action.executeLine "auto p = std::make_shared<Point[3]>();".toList).after s).memory.liveBlocks.length = 2 :=
    ⟨(Action.execute "class Point \x7b int x; int y; \x7d;\nint main() \x7b".toList).after {}, .script _ .fresh,
      by decide +kernel⟩
  have braces : DeclaresOwner .shared "Point[3]".toList "p".toList
      "std::shared_ptr<Point[3]> p\x7bnew Point[3]\x7d;".toList := .direct .braces
  exact ⟨s, reach, inside, closed, known, live, owner_spellings_agree inside closed (by decide) (by decide) braces .auto⟩

end MemoryTrace
