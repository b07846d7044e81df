import MemoryTrace.Proofs.Script.ClassText
import MemoryTrace.Proofs.Script.SmartValue
import MemoryTrace.Session.Declaration

namespace MemoryTrace

open Text

namespace Script

/-- The value `new T`. -/
def newOf (T : Text) : Text := "new".toList ++ ' ' :: T

/-- The brackets in which an initialiser may follow a name. -/
inductive Bracketed (inside : Text) : Text → Prop
  | parentheses : Bracketed inside ('(' :: (inside ++ [')']))
  | braces : Bracketed inside ('{' :: (inside ++ ['}']))

/-- A value that asks for a new `T`. -/
inductive MakesOwned (kind : SmartKind) (T : Text) : Text → Prop
  | factory : MakesOwned kind T (factoryCall kind T)
  | new : MakesOwned kind T (newOf T)

/-- The lines that declare `x` as the owner of a new `T`. -/
inductive DeclaresOwner (kind : SmartKind) (T x : Text) : Text → Prop
  | copy {value : Text} : MakesOwned kind T value → DeclaresOwner kind T x (assigned (declared kind T x) value)
  | direct {tail : Text} : Bracketed (newOf T) tail → DeclaresOwner kind T x (declared kind T (x ++ tail) ++ [';'])
  | auto : DeclaresOwner kind T x (assigned ("auto".toList ++ ' ' :: x) (factoryCall kind T))

example : DeclaresOwner .unique "Point[3]".toList "p".toList "std::unique_ptr<Point[3]> p\x7bnew Point[3]\x7d;".toList :=
  .direct .braces

section Brackets

variable {inside tail : Text} (bracketed : Bracketed inside tail)

include bracketed

theorem Bracketed.apart : ∀ c ∈ tail.head?, isNameChar c = false := by
  cases bracketed <;> (rintro c ⟨⟩; decide)

theorem Bracketed.solid : Bounded isMargin tail := by
  cases bracketed with
  | parentheses => exact ⟨⟨'(', _, rfl, by decide⟩, ⟨'(' :: inside, ')', rfl, by decide⟩⟩
  | braces => exact ⟨⟨'{', _, rfl, by decide⟩, ⟨'{' :: inside, '}', rfl, by decide⟩⟩

theorem Bracketed.directInit? : Action.directInit? tail.trim = some inside := by
  rw [trim_solid bracketed.solid]
  cases bracketed with
  | parentheses => simp [Action.directInit?, Action.enclosed?]
  | braces => simp [Action.directInit?, Action.enclosed?]

theorem Bracketed.not_mem {c : Char} (mark : c ∉ ['(', ')', '{', '}']) (absent : c ∉ inside) : c ∉ tail := by
  cases bracketed <;> simp_all

end Brackets

section Values

variable {kind : SmartKind} {T value : Text} (type : IsTypeText T)

include type

theorem IsTypeText.solid : Bounded isMargin T :=
  solid_of_trim type.nonempty type.trimmed (type.not_mem (by decide))

theorem solid_newOf : Bounded isMargin (newOf T) := by
  have keyword : Bounded isMargin "new".toList := bounded_of_isName (by decide)
  exact keyword.join type.solid [' ']

theorem not_mem_newOf {c : Char} (ends : c ∈ typeEnds) : c ∉ newOf T := by
  have outside : typeEnds.all fun mark => decide (mark ∉ "new ".toList) := by decide
  have foreign := of_decide_eq_true (List.all_eq_true.mp outside c ends)
  have spelled : newOf T = "new ".toList ++ T := by simp [newOf]
  rw [spelled, List.mem_append, not_or]
  exact ⟨foreign, type.not_mem ends⟩

/-- What is asked for is read from the value. -/
theorem newExpression?_newOf : newExpression? (newOf T) = some T := by
  have starts : afterStart? "new" (newOf T) = some (' ' :: T) := List.isPrefixOf?_eq_some_iff_append_eq.mpr rfl
  rw [newExpression?, trim_solid (solid_newOf type), starts]
  simp [isBlank, inRanges, blankRanges, trim_blank_cons, type.trimmed]

theorem movedFrom?_newOf : movedFrom? (newOf T) = none := by
  rw [movedFrom?, trim_solid (solid_newOf type)]
  rfl

namespace MakesOwned

variable (made : MakesOwned kind T value)

include made

theorem solid : Bounded isMargin value := by
  cases made with
  | factory => exact solid_factoryCall kind T
  | new => exact solid_newOf type

theorem not_null : isNullLiteral value = false := by
  have solid := made.solid type
  cases made with
  | factory => exact not_isNullLiteral_of_mem (c := ')') solid (by decide) (by simp [factoryCall])
  | new => exact not_isNullLiteral_of_mem (c := ' ') solid (by decide) (by simp [newOf])

/-- The type that a value asks for, told by `new` or else by the factory. -/
theorem asksFor : newExpression? value = some T ∨
    newExpression? value = none ∧ isFactoryCall value ∧ templateArgument? value = some T := by
  cases made with
  | factory =>
    exact .inr ⟨newExpression?_factoryCall kind T, isFactoryCall_factoryCall kind T,
      templateArgument?_factoryCall type kind⟩
  | new => exact .inl (newExpression?_newOf type)

end MakesOwned

end Values

section Lines

variable {kind : SmartKind} {T x line : Text} (type : IsTypeText T) (named : isName x)
  (declares : DeclaresOwner kind T x line)

include declares

theorem DeclaresOwner.tagged : mentionsSmartPointer line := by
  cases declares with
  | copy => rw [mentionsSmartPointer_assigned, mentionsSmartPointer_declared, Bool.true_or]
  | direct => rw [mentionsSmartPointer_concat (by decide), mentionsSmartPointer_declared]
  | auto =>
    have factory : mentionsSmartPointer (factoryCall kind T) := by
      rw [factoryCall, mentionsSmartPointer_append_cons (by decide), Bool.or_eq_true]
      cases kind <;> exact .inl (by decide)
    rw [mentionsSmartPointer_assigned, factory, Bool.or_true]

theorem DeclaresOwner.ordinary : Ordinary line := by
  cases declares with
  | copy =>
    rw [assigned_declared]
    exact ordinary_declared kind T _
  | direct => exact ordinary_declared kind T _
  | auto =>
    have spelled : assigned ("auto".toList ++ ' ' :: x) (factoryCall kind T) =
        "auto".toList ++ ' ' :: ((x ++ ' ' :: '=' :: ' ' :: factoryCall kind T) ++ [';']) := by
      simp [assigned]
    rw [spelled]
    exact .of_first (by decide) (solid_of_isName (by decide)) (by decide) (by decide) _

end Lines

end Script

end MemoryTrace
