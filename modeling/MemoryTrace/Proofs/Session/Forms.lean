import MemoryTrace.Proofs.Session.Aside

namespace MemoryTrace

open Script

namespace Action

/-- What a declarator comes to. Which of the forms it is may depend on the session, but on nothing that is told. -/
inductive DeclaratorForm (d : Declarator) : Action (Option BlockId) → Prop
  | array (unit count : Nat) : DeclaratorForm d (do
      let size ← arraySize d.name.toName unit count
      let id ← create (·.createVariable d.name.toName size)
      bindName d.name id
      return some id)
  | pointer (pointee : Option ClassLayout) : DeclaratorForm d (do
      let id ← create (·.createPointer d.name.toName .raw pointee)
      bindName d.name id
      return some id)
  | object (layout : ClassLayout) : DeclaratorForm d (do
      let id ← create (·.createObject d.name.toName layout)
      bindName d.name id
      return some id)
  | unknown : DeclaratorForm d (fail (.unknownClass d.typeName.toName))
  | unmodelled : DeclaratorForm d (do
      note (.unmodelledType d.typeName.toName d.name.toName)
      return none)
  | read {f : Session → Action (Option BlockId)}
      (told : ∀ s log line lastError notes, f (s.told log line lastError notes) = f s)
      (each : ∀ s, DeclaratorForm d (f s)) : DeclaratorForm d (get >>= f)

/-- Every declarator comes to one of the forms. Whatever holds of each form holds of the statement. -/
theorem declare_form (d : Declarator) : DeclaratorForm d (declare d) := by
  unfold declare
  simp only [bind_assoc]
  refine .read (fun _ _ _ _ _ => rfl) fun s => ?_
  split
  · exact .array _ _
  · exact .pointer _
  · exact .array _ _
  · exact .array _ _
  · exact .object _
  · split
    · exact .unknown
    · exact .unmodelled

/-- What a line that mentions a smart pointer comes to. -/
inductive SmartForm : Action Unit → Prop
  | declare (name : Text) (discipline : Discipline) (pointee : Text) (init : Option Text) :
      SmartForm (declareSmart name discipline pointee init)
  | assign (place value : Text) : SmartForm (assign place value false)
  | plain {a : Action Unit} (plain : Plain a) : SmartForm a

theorem smartPointer_form (line : Text) : SmartForm (smartPointer line) := by
  unfold smartPointer
  cases (splitAssignment? line).filter (!·.compound) with
  | none =>
    dsimp only
    split
    · split
      · exact .plain (.fail nofun)
      · split
        · exact .plain (.fail nofun)
        · exact .declare _ _ _ _
    · split
      · split <;> exact .plain (.fail nofun)
      · exact .plain (.note _)
  | some a =>
    dsimp only
    split
    · split
      · exact .plain (.fail nofun)
      · split
        · exact .plain (.fail nofun)
        · exact .declare _ _ _ _
    · split
      · split
        · exact .plain (.fail nofun)
        · exact .declare _ _ _ _
      · exact .assign _ _

end Action

end MemoryTrace
