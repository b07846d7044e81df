import MemoryTrace.Proofs.Memory.Layouts
import MemoryTrace.Proofs.Session.Keeping
import MemoryTrace.Proofs.Session.Stepwise

namespace MemoryTrace

open Script

namespace Session

variable {s t : Session} {classes : Table ClassLayout}

/-- Layouts stand in the table of classes under their names, and those on record do too. The class that is open stands
there as well, but nothing has been made of it. -/
structure Catalogued (s : Session) : Prop where
  sound : s.memory.Sound
  named : ∀ name layout, s.classes.get? name = some layout → layout.name = name
  listed : ∀ layout ∈ s.memory.layouts, s.classes.get? layout.name = some layout
  opened : ∀ o, s.openClass = some o → (s.classes.get? o.name).isSome
  unused : ∀ o, s.openClass = some o → ∀ layout ∈ s.memory.layouts, layout.name ≠ o.name

namespace Catalogued

theorem fresh : Catalogued {} where
  sound := Memory.sound_withCapacity 100
  named := nofun
  listed := nofun
  opened := nofun
  unused := nofun

variable (catalogued : s.Catalogued)

include catalogued

theorem congr (memory : t.memory = s.memory) (same : t.classes = s.classes) (open_class : t.openClass = s.openClass) :
    t.Catalogued := by
  obtain ⟨sound, named, listed, opened, unused⟩ := catalogued
  rw [← memory] at sound listed unused
  rw [← same] at named listed opened
  rw [← open_class] at opened unused
  exact ⟨sound, named, listed, opened, unused⟩

/-- An operation may only make something of a listed class, and of none while one is open. -/
theorem perform (operation : Operation)
    (known : ∀ layout, operation.layout? = some layout →
      s.classes.get? layout.name = some layout ∧ s.openClass = none)
    (memory : t.memory = (s.memory.perform operation).2) (same : t.classes = s.classes)
    (open_class : t.openClass = s.openClass) : t.Catalogued := by
  have drawn (layout : ClassLayout) (there : layout ∈ t.memory.layouts) :
      layout ∈ s.memory.layouts ∨ operation.layout? = some layout :=
    Memory.mem_layouts_perform catalogued.sound (memory ▸ there)
  refine ⟨memory ▸ catalogued.sound.perform operation, same ▸ catalogued.named, ?_,
    same ▸ open_class ▸ catalogued.opened, ?_⟩
  · intro layout there
    rw [same]
    rcases drawn layout there with old | new
    · exact catalogued.listed layout old
    · exact (known layout new).1
  · intro o is_open layout there
    rw [open_class] at is_open
    rcases drawn layout there with old | new
    · exact catalogued.unused o is_open layout old
    · rw [(known layout new).2] at is_open
      contradiction

/-- Most operations make nothing of any class. -/
theorem perform_plain (operation : Operation) (plain : operation.layout? = none)
    (memory : t.memory = (s.memory.perform operation).2) (same : t.classes = s.classes)
    (open_class : t.openClass = s.openClass) : t.Catalogued := by
  refine catalogued.perform operation (fun layout new => ?_) memory same open_class
  rw [plain] at new
  contradiction

end Catalogued

/-- No class is open, and the classes are these. -/
structure Settled (classes : Table ClassLayout) (s : Session) : Prop where
  catalogued : s.Catalogued
  classes : s.classes = classes
  closed : s.openClass = none

namespace Settled

variable (settled : s.Settled classes)

include settled

theorem congr (memory : t.memory = s.memory) (same : t.classes = s.classes) (open_class : t.openClass = s.openClass) :
    t.Settled classes :=
  ⟨settled.catalogued.congr memory same open_class, same.trans settled.classes, open_class.trans settled.closed⟩

theorem perform (operation : Operation)
    (known : ∀ layout, operation.layout? = some layout → classes.get? layout.name = some layout)
    (memory : t.memory = (s.memory.perform operation).2) (same : t.classes = s.classes)
    (open_class : t.openClass = s.openClass) : t.Settled classes := by
  refine ⟨settled.catalogued.perform operation (fun layout new => ⟨?_, settled.closed⟩) memory same open_class,
    same.trans settled.classes, open_class.trans settled.closed⟩
  rw [settled.classes]
  exact known layout new

theorem perform_plain (operation : Operation) (plain : operation.layout? = none)
    (memory : t.memory = (s.memory.perform operation).2) (same : t.classes = s.classes)
    (open_class : t.openClass = s.openClass) : t.Settled classes :=
  ⟨settled.catalogued.perform_plain operation plain memory same open_class, same.trans settled.classes,
    open_class.trans settled.closed⟩

/-- A class that is found stands in the table. -/
theorem class? {name : Text} {layout : ClassLayout} (found : s.class? name = some layout) :
    classes.get? layout.name = some layout := by
  rw [← settled.classes, settled.catalogued.named _ _ found]
  exact found

/-- What a pointer was declared to point to stands in the table. -/
theorem pointee {id : BlockId} {p : Pointer} (holds : s.pointer? id = some p) {layout : ClassLayout}
    (points : p.pointee = some layout) : classes.get? layout.name = some layout := by
  obtain ⟨b, found, holds⟩ := Option.bind_eq_some_iff.mp holds
  rw [← settled.classes]
  refine settled.catalogued.listed layout (Memory.mem_layouts.mpr ⟨b, (Memory.block?_some found).1, ?_⟩)
  rw [Block.layout?_of_pointer? holds, points]

end Settled

end Session

namespace Action

variable {α : Type} {classes : Table ClassLayout}

/-- To keep a property, the end of a scope has to keep it where memory leaves the scope. Besides that it only counts. -/
theorem Keeps.closeScope {I : Session → Prop}
    (counts : ∀ s scopeDepth inMain notes, I s → I { s with scopeDepth, inMain, notes })
    (leaves : ∀ s, I s → I { s with memory := (s.memory.perform .endScope).2 }) : Keeps I closeScope := by
  intro s holds
  unfold Action.closeScope
  rw [after_read]
  split
  · exact holds
  · split
    · obtain ⟨notes, left⟩ := s.leaveScope_eq
      dsimp only
      rw [left]
      let popped : Session := { s with memory := (s.memory.perform .endScope).2 }
      split
      · exact counts popped _ _ _ (leaves s holds)
      · exact counts popped _ _ _ (leaves s holds)
    · exact counts s _ s.inMain s.notes holds

/-- The action changes no class and opens none, and what it makes is of these classes. -/
abbrev Settles (classes : Table ClassLayout) (a : Action α) : Prop := a.Keeps (Session.Settled classes)

namespace Settles

theorem note (remark : Remark) : Settles classes (note remark) := fun _ settled => settled.congr rfl rfl rfl

theorem bindName (name : Text) (id : BlockId) : Settles classes (bindName name id) :=
  fun _ settled => settled.congr rfl rfl rfl

/-- An operation that brings no layout leaves the classes settled. -/
theorem attempt (operation : Operation) {f : Memory → Except MemoryError Memory}
    (does : ∀ m next, f m = .ok next → (m.perform operation).2 = next) (plain : operation.layout? = none) :
    Settles classes (attempt f) :=
  Keeps.attempt fun _ _ settled done =>
    settled.perform_plain operation plain (does _ _ done).symm rfl rfl

theorem deallocateIfAny (target : Option BlockId) : Settles classes (Action.attempt (·.deallocateIfAny target)) := by
  cases target with
  | none =>
    refine Keeps.attempt fun s next settled done => settled.congr ?_ rfl rfl
    exact (Except.ok.inj done).symm
  | some id =>
    refine attempt (.deallocate id) (fun m next done => ?_) rfl
    simp only [Memory.deallocateIfAny] at done
    simp only [Memory.perform, Memory.settle, done]

theorem assignPointer (pointer : BlockId) (target : Option BlockId) :
    Settles classes (Action.attempt (·.assignPointer pointer target)) :=
  attempt (.assignPointer pointer target) (fun m next done => by simp only [Memory.perform, Memory.settle, done]) rfl

theorem moveUnique (source dest : BlockId) : Settles classes (Action.attempt (·.moveUnique source dest)) :=
  attempt (.moveUnique source dest) (fun m next done => by simp only [Memory.perform, Memory.settle, done]) rfl

/-- A creation leaves them settled if it makes what stands in the table. -/
theorem create (operation : Operation) {f : Memory → BlockId × Memory} (does : ∀ m, (m.perform operation).2 = (f m).2)
    (known : ∀ layout, operation.layout? = some layout → classes.get? layout.name = some layout) :
    Settles classes (create f) :=
  Keeps.create fun _ settled => settled.perform operation known (does _).symm rfl rfl

theorem createVariable (name : String) (size : Nat) : Settles classes (Action.create (·.createVariable name size)) :=
  create (.createVariable name size) (fun _ => rfl) nofun

theorem allocate (name : String) (size : Nat) (discipline : Discipline) :
    Settles classes (Action.create (·.allocate name size discipline)) :=
  create (.allocate name size discipline) (fun _ => rfl) nofun

theorem createPointer (name : String) (discipline : Discipline) (pointee : Option ClassLayout)
    (known : ∀ layout, pointee = some layout → classes.get? layout.name = some layout) :
    Settles classes (Action.create (·.createPointer name discipline pointee)) :=
  create (.createPointer name discipline pointee) (fun _ => rfl) known

/-- A pointer may be declared to a class that stands in the table. -/
theorem bindPointer (name : Text) (discipline : Discipline) (pointee : Option ClassLayout)
    (known : ∀ layout, pointee = some layout → classes.get? layout.name = some layout) :
    Settles classes (bindPointer name discipline pointee) :=
  (createPointer _ _ _ known).bind fun _ => (bindName _ _).bind fun _ => .pure _

theorem bindSharedCopy (source : BlockId) (name : Text) : Settles classes (bindSharedCopy source name) := by
  intro s settled
  unfold Action.bindSharedCopy
  rw [after_read]
  cases copied : s.memory.copyShared source name.toName with
  | error e => exact settled
  | ok made =>
    have copy : made.2 = (s.memory.perform (.copyShared source name.toName)).2 := by
      simp only [Memory.perform, copied, Memory.announce]
    exact settled.perform_plain (.copyShared source name.toName) rfl copy rfl rfl

/-- What is allocated is of a class that stands in the table, or of none. -/
theorem allocatePointee (typeText : Text) (discipline : Discipline) (owner : Text) :
    Settles classes (allocatePointee typeText discipline owner) := by
  refine Keeps.read fun s settled => ?_
  split
  · exact (Keeps.arraySize _ _ _).bind fun size => allocate _ _ _
  · rename_i layout _ found
    split
    · exact (Keeps.arraySize _ _ _).bind fun size => allocate _ _ _
    · refine create (.allocateObject _ _ _) (fun _ => rfl) ?_
      rintro _ ⟨⟩
      exact settled.class? found
  · exact .fail _

theorem reseat (id : BlockId) (target : Option BlockId) : Settles classes (reseat id target) :=
  Keeps.read fun _ _ => (deallocateIfAny _).bind fun _ => assignPointer _ _

theorem assignFrom (dest : BlockId) (name : Text) (source : BlockId) (moved : Bool) :
    Settles classes (assignFrom dest name source moved) := by
  unfold Action.assignFrom
  split
  · exact .pure _
  · refine Keeps.read fun s _ => ?_
    split
    · exact moveUnique _ _
    · exact (assignPointer _ _).bind fun _ => assignPointer _ _
    · exact (assignPointer _ _).bind fun _ => bindSharedCopy _ _
    · exact assignPointer _ _

theorem storePointer (id : BlockId) (name value : Text) : Settles classes (storePointer id name value) := by
  have allocated (typeText : Text) (discipline : Discipline) : Settles classes (do
      let target ← Action.allocatePointee typeText discipline name
      Action.reseat id (some target)) :=
    (allocatePointee _ _ _).bind fun target => reseat _ _
  refine Keeps.read fun s _ => ?_
  split
  · exact reseat _ _
  · split
    · exact allocated _ _
    · split
      · split
        · exact allocated _ _
        · exact .fail _
      · split
        · exact (Keeps.lookup _).bind fun target => assignPointer _ _
        · refine (Keeps.pointerSource? _).bind fun source => ?_
          split
          · exact assignFrom _ _ _ _
          · exact note _

theorem assign (target value : Text) (compound : Bool) : Settles classes (assign target value compound) := by
  unfold Action.assign
  split
  · split
    · exact .pure _
    · exact (Keeps.lookup _).discard
  · split
    · exact note _
    · refine (Keeps.lookup _).bind fun id => Keeps.read fun s _ => ?_
      split
      · exact storePointer _ _ _
      · exact .pure _

/-- A declarator makes something of a class that it has just looked up. -/
theorem declare (d : Declarator) : Settles classes (declare d) := by
  have bound {make : Action BlockId} (made : Settles classes make) : Settles classes (do
      let id ← make
      Action.bindName d.name id
      return some id) :=
    made.bind fun _ => (bindName _ _).bind fun _ => .pure _
  have array (unit count : Nat) : Settles classes (do
      let size ← Action.arraySize d.name.toName unit count
      Action.create (·.createVariable d.name.toName size)) :=
    (Keeps.arraySize _ _ _).bind fun _ => createVariable _ _
  refine Keeps.read fun s settled => ?_
  split
  · exact bound (array _ _)
  · exact bound (createPointer _ _ _ fun _ => settled.class?)
  · exact bound (array _ _)
  · exact bound (array _ _)
  · rename_i layout _ _ found _
    refine bound (create (.createObject _ layout) (fun _ => rfl) ?_)
    rintro _ ⟨⟩
    exact settled.class? found
  · split
    · exact .fail _
    · exact (note _).bind fun _ => .pure _

theorem declareAuto (name init : Text) : Settles classes (declareAuto name init) := by
  refine Keeps.read fun s settled => ?_
  split
  · exact (bindPointer _ _ _ fun _ => settled.class?).bind fun _ => storePointer _ _ _
  · split
    · exact (bindPointer _ _ none nofun).bind fun _ => storePointer _ _ _
    · refine (Keeps.pointerSource? _).bind fun source => ?_
      split
      · rename_i source moved
        dsimp only
        split
        · exact bindSharedCopy _ _
        · refine (bindPointer _ _ _ fun layout points => ?_).bind fun _ => assignFrom _ _ _ _
          cases holds : s.pointer? source with
          | none =>
            rw [holds] at points
            contradiction
          | some p =>
            rw [holds] at points
            exact settled.pointee holds points
      · exact (createVariable _ _).bind fun _ => bindName _ _

/-- Declarators make objects of classes that stand in the table. -/
theorem declareOne (d : Declarator) : Settles classes (declareOne d) := by
  unfold Action.declareOne
  split
  · exact declareAuto _ _
  · refine (declare d).bind fun declared => ?_
    split
    · refine Keeps.read fun s _ => ?_
      split
      · exact storePointer _ _ _
      · exact .pure _
    · exact .pure _

theorem declareSmart (name : Text) (discipline : Discipline) (pointee : Text) (init : Option Text) :
    Settles classes (declareSmart name discipline pointee init) := by
  refine Keeps.read fun s settled => ?_
  have bound : Settles classes (Action.bindPointer name discipline (s.class? (baseType pointee))) :=
    bindPointer _ _ _ fun _ => settled.class?
  dsimp only
  split
  · exact bound.discard
  · refine (Keeps.pointerSource? _).bind fun source => ?_
    split
    · refine Keeps.read fun t _ => ?_
      split
      · exact bindSharedCopy _ _
      · exact bound.bind fun _ => assignFrom _ _ _ _
    · exact bound.bind fun _ => storePointer _ _ _

theorem assignment (line : Text) : Settles classes (assignment line) := by
  refine (Keeps.declaration? _).bind fun declared => ?_
  split
  · exact .forM declareOne
  · exact assign _ _ _
  · exact .pure _

theorem declaration (line : Text) : Settles classes (declaration line) := by
  refine (Keeps.declaration? _).bind fun declared => ?_
  split
  · exact .forM declareOne
  · exact .pure _

theorem smartPointer (line : Text) : Settles classes (smartPointer line) := by
  unfold Action.smartPointer
  split
  dsimp only
  split
  · split
    · exact .fail _
    · split
      · exact .fail _
      · exact declareSmart _ _ _ _
  · split
    · split
      · exact .fail _
      · split
        · exact .fail _
        · exact declareSmart _ _ _ _
    · split
      · exact assign _ _ _
      · exact note _

theorem delete (line : Text) : Settles classes (delete line) := by
  unfold Action.delete
  dsimp only
  split
  · exact .fail _
  · refine (Keeps.lookup _).bind fun id => Keeps.read fun s _ => ?_
    split
    · exact .fail _
    · split
      · exact .fail _
      · exact (deallocateIfAny _).bind fun _ => assignPointer _ _

theorem enterMain (line : Text) : Settles classes (enterMain line) := by
  unfold Action.enterMain
  split
  · exact note _
  · exact .bind (.modify fun _ settled => settled.congr rfl rfl rfl) fun _ => note _

theorem openScope : Settles classes openScope := .modify fun _ settled => settled.congr rfl rfl rfl

/-- A scope takes a block with it when it ends, but no class. -/
theorem closeScope : Settles classes closeScope :=
  Keeps.closeScope (fun _ _ _ _ settled => settled.congr rfl rfl rfl) fun _ settled =>
    settled.perform_plain .endScope rfl rfl rfl rfl

end Settles

end Action

end MemoryTrace
