import MemoryTrace.Proofs.Session.Failures
import MemoryTrace.Proofs.Session.Forms
import MemoryTrace.Proofs.Session.Keeping

namespace MemoryTrace

open Script

/-- Why a line of the script failed. A crash has no such cause. -/
def Failure.cause? : Failure → Option Cause
  | .script e => some e.cause
  | .crash _ => none

namespace Action

variable {α β : Type}

/-- An action that is put together from work on memory, on names and on notes. It may crash if `crashes` holds. -/
inductive Local (crashes : Prop) : {α : Type} → Action α → Prop
  | protected pure {α : Type} (x : α) : Local crashes (Pure.pure x)
  | fail {α : Type} {cause : Cause} (other : cause ≠ .unexpectedScopeEnd) :
      Local crashes (Action.fail cause : Action α)
  | crash {α : Type} (may : crashes) (c : Crash) : Local crashes (throw (.crash c) : Action α)
  | protected modify {f : Session → Session}
      (kept : ∀ s, ∃ memory bindings notes, f s = { s with memory, bindings, notes }) : Local crashes (modify f)
  | read {α : Type} {f : Session → Action α} (each : ∀ s, Local crashes (f s)) : Local crashes (get >>= f)
  | protected bind {α β : Type} {a : Action α} {f : α → Action β} (first : Local crashes a)
      (rest : ∀ x, Local crashes (f x)) : Local crashes (a >>= f)

namespace Local

variable {crashes : Prop}

/-- A local action changes memory, names and notes, and leaves classes and scopes as they are. -/
theorem after_eq {a : Action α} (inner : Local crashes a) (s : Session) :
    ∃ memory bindings notes, a.after s = { s with memory, bindings, notes } := by
  induction inner generalizing s with
  | pure | fail | crash => exact ⟨s.memory, s.bindings, s.notes, rfl⟩
  | modify kept => exact kept s
  | read _ ih => exact ih s s
  | @bind _ _ a _ _ _ first rest =>
    obtain ⟨memory, bindings, notes, same⟩ := first s
    rw [after_bind]
    cases ran : a s with
    | ok x t =>
      rw [after_of_ok ran] at same
      obtain ⟨memory, bindings, notes, later⟩ := rest x t
      refine ⟨memory, bindings, notes, later.trans ?_⟩
      rw [same]
    | error e t =>
      rw [after_of_error ran] at same
      exact ⟨memory, bindings, notes, same⟩

theorem keeps {I : Session → Prop} {a : Action α} (inner : Local crashes a)
    (kept : ∀ s memory bindings notes, I s → I { s with memory, bindings, notes }) : Keeps I a := by
  intro s holds
  obtain ⟨memory, bindings, notes, same⟩ := inner.after_eq s
  rw [same]
  exact kept s memory bindings notes holds

/-- A local action does not fail for the end of a scope, and it crashes only where it may. -/
theorem failsOnly {a : Action α} (inner : Local crashes a) (s : Session) :
    FailsOnly a s fun e _ => e.cause? ≠ some .unexpectedScopeEnd ∧ (e.cause? = none → crashes) := by
  induction inner generalizing s with
  | pure => exact .pure _
  | fail other => exact .fail ⟨fun same => other (Option.some.inj same), nofun⟩
  | crash may => exact .crash ⟨nofun, fun _ => may⟩
  | modify => exact .modify _
  | read _ ih => exact .read (ih s s)
  | bind _ _ first rest => exact (first s).bind fun x t _ => rest x t

theorem note (remark : Remark) : Local crashes (note remark) :=
  .modify fun s => ⟨s.memory, s.bindings, s.notes ++ [s.noteOf remark], rfl⟩

theorem discard {a : Action α} (inner : Local crashes a) : Local crashes (discard a : Action PUnit) :=
  inner.bind fun _ => .pure _

protected theorem forM {list : List α} {f : α → Action PUnit} (each : ∀ x, Local crashes (f x)) :
    Local crashes (list.forM f) := by
  induction list with
  | nil => exact .pure _
  | cons x rest ih => exact (each x).bind fun _ => ih

theorem become (memory : Memory) : Local crashes (modify fun s => { s with memory }) :=
  .modify fun s => ⟨memory, s.bindings, s.notes, rfl⟩

theorem attempt (operation : Memory → Except MemoryError Memory) : Local crashes (attempt operation) := by
  refine .read fun s => ?_
  split
  · exact become _
  · exact .fail nofun

theorem create (make : Memory → BlockId × Memory) : Local crashes (create make) :=
  .read fun _ => (become _).bind fun _ => .pure _

theorem bindName (name : Text) (id : BlockId) : Local crashes (bindName name id) :=
  .modify fun s => ⟨s.memory, s.bindings.set name.toName id, s.notes, rfl⟩

theorem of_asks {a : Action α} (asks : Asks crashes a) : Local crashes a := by
  induction asks with
  | pure x => exact .pure x
  | fail _ other => exact .fail other
  | crash may c => exact .crash may c
  | read _ _ ih => exact .read ih
  | bind _ _ first rest => exact first.bind rest

theorem lookup (name : Text) : Local crashes (lookup name) := .of_asks (.lookup name)

theorem arraySize (name : String) (unit count : Nat) : Local crashes (arraySize name unit count) :=
  .of_asks (.arraySize name unit count)

theorem pointerSource? (text : Text) : Local crashes (pointerSource? text) := .of_asks (.pointerSource? text)

theorem bindPointer (name : Text) (discipline : Discipline) (pointee : Option ClassLayout) :
    Local crashes (bindPointer name discipline pointee) :=
  (create _).bind fun _ => (bindName _ _).bind fun _ => .pure _

theorem bindSharedCopy (source : BlockId) (name : Text) : Local crashes (bindSharedCopy source name) := by
  refine .read fun s => ?_
  split
  · exact (become _).bind fun _ => bindName _ _
  · exact .fail nofun

theorem allocatePointee (typeText : Text) (discipline : Discipline) (owner : Text) :
    Local crashes (allocatePointee typeText discipline owner) := by
  have array (name : String) (unit count : Nat) : Local crashes (do
      let size ← Action.arraySize name unit count
      Action.create (·.allocate name size discipline)) :=
    (arraySize _ _ _).bind fun _ => create _
  refine .read fun s => ?_
  split
  · exact array _ _ _
  · split
    · exact array _ _ _
    · exact create _
  · exact .fail nofun

theorem reseat (id : BlockId) (target : Option BlockId) : Local crashes (reseat id target) :=
  .read fun _ => (attempt _).bind fun _ => attempt _

theorem assignFrom (dest : BlockId) (name : Text) (source : BlockId) (moved : Bool) :
    Local crashes (assignFrom dest name source moved) := by
  unfold Action.assignFrom
  split
  · exact .pure _
  · refine .read fun s => ?_
    split
    · exact attempt _
    · exact (attempt _).bind fun _ => attempt _
    · exact (attempt _).bind fun _ => bindSharedCopy _ _
    · exact attempt _

theorem storePointer (id : BlockId) (name value : Text) : Local crashes (storePointer id name value) := by
  have allocated (typeText : Text) (discipline : Discipline) : Local crashes (do
      let target ← Action.allocatePointee typeText discipline name
      Action.reseat id (some target)) :=
    (allocatePointee _ _ _).bind fun _ => reseat _ _
  refine .read fun s => ?_
  split
  · exact reseat _ _
  · split
    · exact allocated _ _
    · split
      · split
        · exact allocated _ _
        · exact .fail nofun
      · split
        · exact (lookup _).bind fun _ => attempt _
        · refine (pointerSource? _).bind fun source => ?_
          split
          · exact assignFrom _ _ _ _
          · exact note _

theorem assign (target value : Text) (compound : Bool) : Local crashes (assign target value compound) := by
  unfold Action.assign
  split
  · split
    · exact .pure _
    · exact (lookup _).discard
  · split
    · exact note _
    · refine (lookup _).bind fun id => .read fun s => ?_
      split
      · exact storePointer _ _ _
      · exact .pure _

theorem declare (d : Declarator) : Local crashes (declare d) := by
  have bound (make : Memory → BlockId × Memory) : Local crashes (do
      let id ← Action.create make
      Action.bindName d.name id
      return some id) :=
    (create _).bind fun _ => (bindName _ _).bind fun _ => .pure _
  have form := declare_form d
  generalize Action.declare d = a at form ⊢
  induction form with
  | array unit count => exact (arraySize _ _ _).bind fun _ => bound _
  | pointer pointee => exact bound _
  | object layout => exact bound _
  | unknown => exact .fail nofun
  | unmodelled => exact (note _).bind fun _ => .pure _
  | read _ _ each => exact .read each

theorem declareAuto (name init : Text) : Local crashes (declareAuto name init) := by
  refine .read fun s => ?_
  split
  · exact (bindPointer _ _ _).bind fun _ => storePointer _ _ _
  · split
    · exact (bindPointer _ _ _).bind fun _ => storePointer _ _ _
    · refine (pointerSource? _).bind fun source => ?_
      split
      · dsimp only
        split
        · exact bindSharedCopy _ _
        · exact (bindPointer _ _ _).bind fun _ => assignFrom _ _ _ _
      · exact (create _).bind fun _ => bindName _ _

theorem declareOne (d : Declarator) : Local crashes (declareOne d) := by
  unfold Action.declareOne
  split
  · exact declareAuto _ _
  · refine (declare d).bind fun declared => ?_
    split
    · refine .read fun s => ?_
      split
      · exact storePointer _ _ _
      · exact .pure _
    · exact .pure _

theorem declareSmart (name : Text) (discipline : Discipline) (pointee : Text) (init : Option Text) :
    Local crashes (declareSmart name discipline pointee init) := by
  refine .read fun s => ?_
  dsimp only
  split
  · exact (bindPointer _ _ _).discard
  · refine (pointerSource? _).bind fun source => ?_
    split
    · refine .read fun t => ?_
      split
      · exact bindSharedCopy _ _
      · exact (bindPointer _ _ _).bind fun _ => assignFrom _ _ _ _
    · exact (bindPointer _ _ _).bind fun _ => storePointer _ _ _

theorem assignment {line : Text} (reads : crashes ∨ ∀ c, readDeclaration line ≠ .error (.crash c)) :
    Local crashes (assignment line) := by
  refine (of_asks (.declaration? reads)).bind fun declared => ?_
  split
  · exact .forM declareOne
  · exact assign _ _ _
  · exact .pure _

theorem declaration {line : Text} (reads : crashes ∨ ∀ c, readDeclaration line ≠ .error (.crash c)) :
    Local crashes (declaration line) := by
  refine (of_asks (.declaration? reads)).bind fun declared => ?_
  split
  · exact .forM declareOne
  · exact .pure _

/-- A line about smart pointers reads no list of declarators, so it never crashes. -/
theorem smartPointer (line : Text) : Local crashes (smartPointer line) := by
  unfold Action.smartPointer
  split
  dsimp only
  split
  · split
    · exact .fail nofun
    · split
      · exact .fail nofun
      · exact declareSmart _ _ _ _
  · split
    · split
      · exact .fail nofun
      · split
        · exact .fail nofun
        · exact declareSmart _ _ _ _
    · split
      · exact assign _ _ _
      · exact note _

theorem delete (line : Text) : Local crashes (delete line) := by
  unfold Action.delete
  dsimp only
  split
  · exact .fail nofun
  · refine (lookup _).bind fun id => .read fun s => ?_
    split
    · exact .fail nofun
    · split
      · exact .fail nofun
      · exact (attempt _).bind fun _ => attempt _

end Local

end Action

/-- Statements of the other kinds belong to a class or open or close something. -/
def StatementKind.isLocal : StatementKind → Bool
  | .classHeader | .classBody | .entryFunction | .scopeReenter | .scopeClose | .scopeOpen => false
  | .returning | .outsideFunction | .delete | .declareWithNew | .smartPointer | .assignment | .declaration
  | .unrecognized => true

/-- Statements of a local kind work on memory and names alone, and none crashes but where a declaration is read. -/
theorem Action.Local.perform {crashes : Prop} {line : Text} {kind : StatementKind} (inner : kind.isLocal)
    (reads : crashes ∨ ∀ c, readDeclaration line ≠ .error (.crash c)) : Local crashes (perform line kind) := by
  cases kind with
  | classHeader | classBody | entryFunction | scopeReenter | scopeClose | scopeOpen => contradiction
  | delete => exact delete line
  | declareWithNew | assignment => exact assignment reads
  | smartPointer => exact smartPointer line
  | declaration => exact declaration reads
  | returning | outsideFunction | unrecognized => exact .pure _

end MemoryTrace
