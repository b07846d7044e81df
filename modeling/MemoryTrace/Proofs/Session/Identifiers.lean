import MemoryTrace.Proofs.Script.DeclarationParts
import MemoryTrace.Proofs.Session.Crashes

namespace MemoryTrace

open Script Text

namespace Script

/-- What is read as a declaration declares identifiers. -/
theorem isName_of_readDeclaration {text : Text} {declarators : List Declarator}
    (made : readDeclaration text = .ok declarators) : ∀ d ∈ declarators, isName d.name := by
  obtain ⟨T, rest, _, each⟩ := readDeclaration_eq_ok_iff.mp made
  have named := each.flip.imp fun d piece read => And.intro (Declarator.of_read read).2 read
  exact ((List.forall₂_and_left ..).mp named).1

end Script

/-- Every name that denotes something is an identifier. -/
def Session.Identified (s : Session) : Prop := ∀ name id, s.bindings.get? name = some id → isName name.toList

namespace Action

variable {α : Type}

/-- Whatever the action declares, it declares under an identifier. -/
abbrev Identifies (a : Action α) : Prop := a.Keeps Session.Identified

namespace Identifies

theorem note (remark : Remark) : Identifies (note remark) := fun _ identified => identified

theorem attempt (f : Memory → Except MemoryError Memory) : Identifies (attempt f) :=
  Keeps.attempt fun _ _ identified _ => identified

theorem create (f : Memory → BlockId × Memory) : Identifies (create f) := Keeps.create fun _ identified => identified

theorem bindName {name : Text} (named : isName name) (id : BlockId) : Identifies (bindName name id) := by
  intro s identified other denoted known
  change (s.bindings.set name.toName id).get? other = some denoted at known
  by_cases same : other = name.toName
  · rwa [same, toList_toName]
  · rw [Table.get?_set_ne _ _ same] at known
    exact identified other denoted known

theorem bindPointer {name : Text} (named : isName name) (discipline : Discipline) (pointee : Option ClassLayout) :
    Identifies (bindPointer name discipline pointee) :=
  (create _).bind fun _ => (bindName named _).bind fun _ => .pure _

theorem bindSharedCopy (source : BlockId) {name : Text} (named : isName name) :
    Identifies (bindSharedCopy source name) := by
  refine Keeps.read fun s _ => ?_
  split
  · exact (Keeps.modify fun _ identified => identified).bind fun _ => bindName named _
  · exact .fail _

theorem allocatePointee (typeText : Text) (discipline : Discipline) (owner : Text) :
    Identifies (allocatePointee typeText discipline owner) := by
  refine Keeps.read fun s _ => ?_
  split
  · exact (Keeps.arraySize _ _ _).bind fun _ => create _
  · split
    · exact (Keeps.arraySize _ _ _).bind fun _ => create _
    · exact create _
  · exact .fail _

theorem reseat (id : BlockId) (target : Option BlockId) : Identifies (reseat id target) :=
  Keeps.read fun _ _ => (attempt _).bind fun _ => attempt _

variable {name : Text} (named : isName name)

include named

theorem assignFrom (dest source : BlockId) (moved : Bool) : Identifies (assignFrom dest name source moved) := by
  unfold Action.assignFrom
  split
  · exact .pure _
  · refine Keeps.read fun s _ => ?_
    split
    · exact attempt _
    · exact (attempt _).bind fun _ => attempt _
    · exact (attempt _).bind fun _ => bindSharedCopy _ named
    · exact attempt _

theorem storePointer (id : BlockId) (value : Text) : Identifies (storePointer id name value) := by
  have allocated (typeText : Text) (discipline : Discipline) : Identifies (do
      let target ← Action.allocatePointee typeText discipline name
      Action.reseat id (some target)) :=
    (allocatePointee _ _ _).bind fun _ => reseat _ _
  refine Keeps.read fun s _ => ?_
  split
  · exact reseat _ _
  · split
    · exact allocated _ _
    · split
      · split
        · exact allocated _ _
        · exact .fail _
      · split
        · exact (Keeps.lookup _).bind fun _ => attempt _
        · refine (Keeps.pointerSource? _).bind fun source => ?_
          split
          · exact assignFrom named _ _ _
          · exact note _

theorem declareAuto (init : Text) : Identifies (declareAuto name init) := by
  refine Keeps.read fun s _ => ?_
  split
  · exact (bindPointer named _ _).bind fun _ => storePointer named _ _
  · split
    · exact (bindPointer named _ _).bind fun _ => storePointer named _ _
    · refine (Keeps.pointerSource? _).bind fun source => ?_
      split
      · dsimp only
        split
        · exact bindSharedCopy _ named
        · exact (bindPointer named _ _).bind fun _ => assignFrom named _ _ _
      · exact (create _).bind fun _ => bindName named _

theorem declareSmart (discipline : Discipline) (pointee : Text) (init : Option Text) :
    Identifies (declareSmart name discipline pointee init) := by
  refine Keeps.read fun s _ => ?_
  dsimp only
  split
  · exact (bindPointer named _ _).discard
  · refine (Keeps.pointerSource? _).bind fun source => ?_
    split
    · refine Keeps.read fun t _ => ?_
      split
      · exact bindSharedCopy _ named
      · exact (bindPointer named _ _).bind fun _ => assignFrom named _ _ _
    · exact (bindPointer named _ _).bind fun _ => storePointer named _ _

omit named

theorem assign (target value : Text) (compound : Bool) : Identifies (assign target value compound) := by
  unfold Action.assign
  split
  · split
    · exact .pure _
    · exact (Keeps.lookup _).discard
  · split
    · exact note _
    · rename_i named
      refine (Keeps.lookup _).bind fun id => Keeps.read fun s _ => ?_
      split
      · exact storePointer (by simpa using named) _ _
      · exact .pure _

theorem declare {d : Declarator} (named : isName d.name) : Identifies (declare d) := by
  have bound (make : Memory → BlockId × Memory) : Identifies (do
      let id ← Action.create make
      Action.bindName d.name id
      return some id) :=
    (create _).bind fun _ => (bindName named _).bind fun _ => .pure _
  have form := declare_form d
  generalize Action.declare d = a at form ⊢
  induction form with
  | array unit count => exact (Keeps.arraySize _ _ _).bind fun _ => bound _
  | pointer pointee => exact bound _
  | object layout => exact bound _
  | unknown => exact .fail _
  | unmodelled => exact (note _).bind fun _ => .pure _
  | read _ _ each => exact Keeps.read fun s _ => each s

theorem declareOne {d : Declarator} (named : isName d.name) : Identifies (declareOne d) := by
  unfold Action.declareOne
  split
  · exact declareAuto named _
  · refine (declare named).bind fun declared => ?_
    split
    · refine Keeps.read fun s _ => ?_
      split
      · exact storePointer named _ _
      · exact .pure _
    · exact .pure _

/-- The declarators that a line is read as are declared under identifiers. -/
theorem declaration? (line : Text) {f : Option (List Declarator) → Action α} (unread : Identifies (f none))
    (read : ∀ declarators : List Declarator, (∀ d ∈ declarators, isName d.name) → Identifies (f (some declarators))) :
    Identifies (Action.declaration? line >>= f) := by
  unfold Action.declaration?
  split
  · rename_i declarators made
    rw [pure_bind]
    exact read declarators (isName_of_readDeclaration made)
  · rw [pure_bind]
    exact unread
  · exact fun _ identified => identified

theorem declarators {list : List Declarator} (named : ∀ d ∈ list, isName d.name) :
    Identifies (list.forM Action.declareOne) := by
  induction list with
  | nil => exact .pure _
  | cons d rest ih =>
    rw [List.forall_mem_cons] at named
    exact (declareOne named.1).bind fun _ => ih named.2

theorem assignment (line : Text) : Identifies (assignment line) := by
  refine declaration? line ?_ fun _ named => declarators named
  split
  · contradiction
  · exact assign _ _ _
  · exact .pure _

theorem declaration (line : Text) : Identifies (declaration line) :=
  declaration? line (.pure _) fun _ named => declarators named

theorem smartPointer (line : Text) : Identifies (smartPointer line) := by
  have named (text : Text) (nonempty : ¬ (leadingName text).isEmpty) : isName (leadingName text) :=
    isName_leadingName (by simpa using nonempty)
  unfold Action.smartPointer
  split
  dsimp only
  split
  · split
    · exact .fail _
    · split
      · exact .fail _
      · rename_i nonempty
        exact declareSmart (named _ nonempty) _ _ _
  · split
    · split
      · exact .fail _
      · rename_i nonempty
        split
        · exact .fail _
        · exact declareSmart (named _ nonempty) _ _ _
    · split
      · exact assign _ _ _
      · exact note _

theorem delete (line : Text) : Identifies (delete line) := by
  unfold Action.delete
  dsimp only
  split
  · exact .fail _
  · refine (Keeps.lookup _).bind fun id => Keeps.read fun s _ => ?_
    split
    · exact .fail _
    · split
      · exact .fail _
      · exact (attempt _).bind fun _ => attempt _

theorem closeScope : Identifies closeScope :=
  Keeps.closeScope (fun _ _ _ _ identified => identified) fun _ identified => identified

theorem of_plain {a : Action α} (plain : Plain a) : Identifies a := by
  intro s identified
  unfold Session.Identified
  rw [(plain.after_eq s).2]
  exact identified

/-- Whatever a line is taken for, it declares identifiers. -/
theorem perform (line : Text) (kind : StatementKind) : Identifies (perform line kind) := by
  cases kind with
  | classHeader => exact of_plain (.beginClass line)
  | classBody => exact of_plain (.classBody line)
  | entryFunction => exact of_plain (.enterMain line)
  | scopeReenter => exact closeScope.bind fun _ => of_plain .openScope
  | scopeClose => exact closeScope
  | scopeOpen => exact of_plain .openScope
  | delete => exact delete line
  | declareWithNew | assignment => exact assignment line
  | smartPointer => exact smartPointer line
  | declaration => exact declaration line
  | returning | outsideFunction | unrecognized => exact .pure _

theorem executeLine (line : Text) : Identifies (executeLine line) := by
  have stated : Identifies (statement line) := by
    refine Keeps.read fun s _ => ?_
    split
    · exact (note _).bind fun _ => perform line _
    · exact .crash _
  intro s identified
  obtain ⟨lastError, notes, same⟩ := after_executeLine_eq line s
  rw [same]
  exact stated s identified

end Identifies

end Action

/-- Whatever a script declares, it declares under an identifier, so every name that denotes something is one. -/
theorem Session.Reachable.identified {s : Session} (reach : s.Reachable) : s.Identified :=
  reach.holds_of_lines nofun (fun _ identified _ _ _ _ _ => identified) Action.Identifies.executeLine

end MemoryTrace
