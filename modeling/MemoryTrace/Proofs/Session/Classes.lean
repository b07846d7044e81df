import MemoryTrace.Proofs.Session.Catalogue
import MemoryTrace.Proofs.Session.Local
import MemoryTrace.Proofs.Session.Reach

namespace MemoryTrace

open Script

theorem ClassLayout.name_foldl_addMember (layout : ClassLayout) (added : List Member) :
    (added.foldl addMember layout).name = layout.name := by
  induction added generalizing layout with
  | nil => rfl
  | cons first rest ih => exact ih _

/-- A function header does not change the name of the class. -/
theorem OpenClass.afterHeader_name (o : OpenClass) (line : Text) : (o.afterHeader line).name = o.name := by
  unfold afterHeader
  split
  · rfl
  · split <;> rfl

namespace Session

variable {s t : Session} {name : String}

/-- Of all the classes only `name` may have changed. It stands in the table, and no other class is open. -/
structure Edits (name : String) (s t : Session) : Prop where
  memory : t.memory = s.memory
  others : ∀ other, other ≠ name → t.classes.get? other = s.classes.get? other
  entry : ∃ layout, t.classes.get? name = some layout ∧ layout.name = name
  opened : ∀ o, t.openClass = some o → o.name = name

/-- The session is catalogued. Every class of `s` is still there, and unless it was open it is what it was. -/
structure Passes (s t : Session) : Prop where
  catalogued : t.Catalogued
  stays : ∀ name layout, s.classes.get? name = some layout →
    (t.classes.get? name).isSome ∧
      ((∀ o, s.openClass = some o → o.name ≠ name) → t.classes.get? name = some layout)

namespace Catalogued

variable (catalogued : s.Catalogued)

include catalogued

theorem passes : s.Passes s := ⟨catalogued, fun _ _ known => ⟨Option.isSome_of_eq_some known, fun _ => known⟩⟩

/-- The open class is the one to be edited. -/
theorem edits_open {o : OpenClass} (opened : s.openClass = some o) : s.Edits o.name s where
  memory := rfl
  others := fun _ _ => rfl
  entry := by
    obtain ⟨layout, known⟩ := Option.isSome_iff_exists.mp (catalogued.opened o opened)
    exact ⟨layout, known, catalogued.named _ _ known⟩
  opened := by
    intro other also
    rw [Option.some.inj (opened.symm.trans also)]

/-- A class may be changed if nothing has been made of it, and if it is new or open. -/
theorem passes_of_edits (edits : s.Edits name t) (unused : ∀ layout ∈ s.memory.layouts, layout.name ≠ name)
    (own : ∀ layout, s.classes.get? name = some layout → ∃ o, s.openClass = some o ∧ o.name = name) :
    s.Passes t := by
  obtain ⟨edited, stands, called⟩ := edits.entry
  refine ⟨⟨edits.memory ▸ catalogued.sound, ?_, ?_, ?_, ?_⟩, ?_⟩
  · intro other layout known
    by_cases same : other = name
    · subst same
      rwa [← Option.some.inj (stands.symm.trans known)]
    · rw [edits.others other same] at known
      exact catalogued.named other layout known
  · intro layout there
    rw [edits.memory] at there
    rw [edits.others _ (unused layout there)]
    exact catalogued.listed layout there
  · intro o opened
    rw [edits.opened o opened, stands]
    rfl
  · intro o opened layout there
    rw [edits.opened o opened]
    exact unused layout (edits.memory ▸ there)
  · intro other layout known
    by_cases same : other = name
    · subst same
      obtain ⟨o, opened, its⟩ := own layout known
      exact ⟨Option.isSome_of_eq_some stands, fun closed => absurd its (closed o opened)⟩
    · rw [edits.others other same, known]
      exact ⟨rfl, fun _ => rfl⟩

end Catalogued

/-- What is settled for the classes of `s` has passed. -/
theorem Settled.passes (settled : t.Settled s.classes) : s.Passes t := by
  refine ⟨settled.catalogued, fun name layout known => ?_⟩
  rw [settled.classes]
  exact ⟨Option.isSome_of_eq_some known, fun _ => known⟩

theorem Passes.congr {u : Session} (passes : s.Passes t) (memory : u.memory = t.memory)
    (classes : u.classes = t.classes) (open_class : u.openClass = t.openClass) : s.Passes u :=
  ⟨passes.catalogued.congr memory classes open_class, classes ▸ passes.stays⟩

namespace Edits

variable (edits : s.Edits name t)

include edits

theorem modify {f : ClassLayout → ClassLayout} (called : ∀ layout, (f layout).name = layout.name) :
    s.Edits name { t with classes := t.classes.modify name f } where
  memory := edits.memory
  others := by
    intro other different
    rw [Table.get?_modify, if_neg different]
    exact edits.others other different
  entry := by
    obtain ⟨layout, stands, its⟩ := edits.entry
    refine ⟨f layout, ?_, (called layout).trans its⟩
    rw [Table.get?_modify, if_pos rfl, stands, Option.map_some]
  opened := edits.opened

theorem become {o : OpenClass} (its : o.name = name) : s.Edits name { t with openClass := some o } where
  memory := edits.memory
  others := edits.others
  entry := edits.entry
  opened := by
    rintro _ ⟨⟩
    exact its

end Edits

/-- A class may be registered under a new name. -/
theorem edits_register (closed : s.openClass = none) (name : String) :
    s.Edits name { s with classes := s.classes.set name { name } } where
  memory := rfl
  others := fun _ different => Table.get?_set_ne _ _ different
  entry := ⟨_, Table.get?_set_self .., rfl⟩
  opened := by simp [closed]

theorem classify_of_open (opened : s.openClass.isSome) (line : Text) : s.classify line = .ok .classBody := by
  unfold classify
  have not_closed : s.openClass.isNone = false := by simpa using opened
  simp only [not_closed, opened, Bool.false_and, Bool.false_eq_true, if_false, if_true]

end Session

namespace Action

variable {s : Session} {name : String}

theorem Keeps.edits_note (remark : Remark) : Keeps (s.Edits name) (note remark) := fun _ edits =>
  ⟨edits.memory, edits.others, edits.entry, edits.opened⟩

theorem Keeps.edits_addMembers (statement : Text) : Keeps (s.Edits name) (addMembers name statement) := by
  refine (membersOf _ _).bind fun members => read fun t _ => ?_
  dsimp only
  split
  · exact .modify fun u edits => edits.modify fun layout => layout.name_foldl_addMember members
  · exact .fail _

/-- Constructors and destructors are noted in that class alone. -/
theorem Keeps.edits_noteSpecialMember (line : Text) : Keeps (s.Edits name) (noteSpecialMember name line) :=
  .modify fun _ edits => edits.modify fun _ => rfl

open Session (Passes Catalogued)

/-- A class header leaves the classes settled. Once the class stands in the table, a bad member leaves it there. -/
theorem passes_beginClass (catalogued : s.Catalogued) (closed : s.openClass = none) (line : Text) :
    s.Passes ((beginClass line).after s) := by
  unfold beginClass
  generalize ((tokens line)[1]?.map leadingName).getD [] = name
  dsimp only
  split
  · exact catalogued.passes
  · rw [after_read]
    split
    · exact catalogued.passes
    · rename_i unknown
      have fresh : s.classes.get? name.toName = none := Option.not_isSome_iff_eq_none.mp unknown
      have registered (a : Action Unit) (keeps : Keeps (s.Edits name.toName) a) : s.Passes (Action.after (do
          modify fun s => { s with classes := s.classes.set name.toName { name := name.toName } }
          a) s) := by
        refine catalogued.passes_of_edits (keeps _ (Session.edits_register closed name.toName)) ?_ ?_
        · intro layout there its
          have listed := catalogued.listed layout there
          rw [its, fresh] at listed
          contradiction
        · intro layout known
          rw [fresh] at known
          contradiction
      refine registered _ ((Keeps.edits_note _).bind fun _ => ?_)
      split
      · exact .forM Keeps.edits_addMembers
      · exact .modify fun _ edits => edits.become rfl

/-- What a line inside the class `name` comes to. It says where in the class the next line stands, or that the class is
over. A function is noted then, and data are added. -/
inductive ClassLineForm (name : String) : Action Unit → Prop
  | stands {o : OpenClass} (same : o.name = name) : ClassLineForm name (modify fun s => { s with openClass := some o })
  | ends : ClassLineForm name (modify (·.closeClass name))
  | function {o : OpenClass} (same : o.name = name) (line : Text) : ClassLineForm name (do
      modify fun s => { s with openClass := some o }
      noteSpecialMember name line)
  | data {o : OpenClass} (same : o.name = name) (statement : Text) : ClassLineForm name (do
      modify fun s => { s with openClass := some o }
      addMembers name statement)

/-- Whatever a line of a class definition says, it only edits that class. -/
theorem classBody_form {o : OpenClass} (opened : s.openClass = some o) (line : Text) :
    ∃ a, ClassLineForm o.name a ∧ classBody line s = a s := by
  have stands (c : OpenClass) (its : c.name = o.name) :
      ∃ a, ClassLineForm o.name a ∧ (modify fun s => { s with openClass := some c } : Action Unit) s = a s :=
    ⟨_, .stands its, rfl⟩
  unfold classBody
  rw [get_bind, opened]
  dsimp only
  split
  · exact stands _ rfl
  · split
    · exact stands _ rfl
    · split
      · exact stands _ rfl
      · split
        · exact ⟨_, .ends, rfl⟩
        · split
          · have its : (OpenClass.afterHeader { o with awaitingBody := false } (withoutAccess line)).name = o.name :=
              OpenClass.afterHeader_name _ _
            exact ⟨_, .function its (withoutAccess line), rfl⟩
          · have its : ({ o with awaitingBody := false } : OpenClass).name = o.name := rfl
            exact ⟨_, .data its (withoutAccess line), rfl⟩

theorem classBody_of_closed (closed : s.openClass = none) (line : Text) : classBody line s = .ok () s := by
  unfold classBody
  rw [get_bind, closed]
  rfl

/-- A line of a class leaves the classes settled. -/
theorem passes_classBody (catalogued : s.Catalogued) (line : Text) : s.Passes ((classBody line).after s) := by
  cases opened : s.openClass with
  | none =>
    rw [after_of_ok (classBody_of_closed opened line)]
    exact catalogued.passes
  | some o =>
    obtain ⟨a, form, same⟩ := classBody_form opened line
    have become {c : OpenClass} (its : c.name = o.name) :
        Keeps (s.Edits o.name) (modify fun s => { s with openClass := some c }) :=
      .modify fun _ edits => edits.become its
    have keeps : Keeps (s.Edits o.name) a := by
      cases form with
      | stands its => exact become its
      | ends =>
        refine .modify fun t edits => ?_
        obtain ⟨notes, closed⟩ := t.closeClass_eq o.name
        rw [closed]
        exact ⟨edits.memory, edits.others, edits.entry, nofun⟩
      | function its => exact (become its).bind fun _ => .edits_noteSpecialMember _
      | data its => exact (become its).bind fun _ => .edits_addMembers _
    rw [after, same]
    exact catalogued.passes_of_edits (keeps s (catalogued.edits_open opened)) (catalogued.unused o opened)
      fun _ _ => ⟨o, opened, rfl⟩

/-- While a class is open a statement is a line of it. -/
theorem statement_of_open (opened : s.openClass.isSome) (line : Text) :
    statement line s = classBody line (s.note (.running .classBody line.toName)) := by
  unfold statement
  rw [get_bind, Session.classify_of_open opened]
  rfl

/-- While a class is open, every line belongs to it. Every statement but a class header finds the classes settled and
leaves them so. -/
theorem passes_perform (catalogued : s.Catalogued) (line : Text) {kind : StatementKind}
    (inside : s.openClass.isSome → kind = .classBody) : s.Passes ((perform line kind).after s) := by
  cases opened : s.openClass with
  | some o =>
    rw [inside (Option.isSome_of_eq_some opened)]
    exact passes_classBody catalogued line
  | none =>
    have settled : s.Settled s.classes := ⟨catalogued, rfl, opened⟩
    cases kind with
    | classHeader => exact passes_beginClass catalogued opened line
    | classBody => exact passes_classBody catalogued line
    | entryFunction => exact (Settles.enterMain line s settled).passes
    | scopeReenter => exact (Settles.closeScope.bind (fun _ => Settles.openScope) s settled).passes
    | scopeClose => exact (Settles.closeScope s settled).passes
    | scopeOpen => exact (Settles.openScope s settled).passes
    | delete => exact (Settles.delete line s settled).passes
    | declareWithNew | assignment => exact (Settles.assignment line s settled).passes
    | smartPointer => exact (Settles.smartPointer line s settled).passes
    | declaration => exact (Settles.declaration line s settled).passes
    | returning | outsideFunction | unrecognized => exact catalogued.passes

/-- Every statement leaves the classes settled. -/
theorem passes_statement (catalogued : s.Catalogued) (line : Text) : s.Passes ((statement line).after s) := by
  unfold statement
  rw [after_read]
  split
  · rename_i kind taken
    have noted : (s.note (.running kind line.toName)).Catalogued := catalogued.congr rfl rfl rfl
    have passes := passes_perform noted line fun opened : s.openClass.isSome =>
      Except.ok.inj (taken.symm.trans (Session.classify_of_open opened line))
    exact ⟨passes.catalogued, passes.stays⟩
  · exact catalogued.passes

/-- The session remembers the error of a line that fails, and is otherwise as its statement left it. -/
theorem after_executeLine_eq (line : Text) (s : Session) :
    ∃ lastError notes, (executeLine line).after s = { (statement line).after s with lastError, notes } := by
  unfold executeLine Action.after
  cases ran : statement line s with
  | ok _ t => exact ⟨t.lastError, t.notes, by simp only [ran]⟩
  | error e t =>
    cases e with
    | script e => exact ⟨some e, (t.note (.failed e)).notes, by simp only [ran]; rfl⟩
    | crash c => exact ⟨t.lastError, t.notes, by simp only [ran]⟩

theorem passes_executeLine (catalogued : s.Catalogued) (line : Text) : s.Passes ((executeLine line).after s) := by
  obtain ⟨lastError, notes, same⟩ := after_executeLine_eq line s
  rw [same]
  exact (passes_statement catalogued line).congr rfl rfl rfl

section Elsewhere

variable {I : Session → Prop}
  (congr : ∀ s t : Session, t.classes = s.classes → t.openClass = s.openClass → I s → I t)

include congr

/-- What is said of classes alone is kept by a statement that is not about classes. -/
theorem Keeps.perform_of_classes (line : Text) {kind : StatementKind} (no_header : kind ≠ .classHeader)
    (no_body : kind ≠ .classBody) : Keeps I (perform line kind) := by
  have opens : Keeps I openScope := .modify fun s => congr s _ rfl rfl
  have closes : Keeps I Action.closeScope :=
    Keeps.closeScope (fun s _ _ _ => congr s _ rfl rfl) fun s => congr s _ rfl rfl
  have tells (remark : Remark) : Keeps I (note remark) := .modify fun s => congr s _ rfl rfl
  cases kind with
  | classHeader | classBody => contradiction
  | entryFunction =>
    change Keeps I (enterMain line)
    unfold enterMain
    split
    · exact tells _
    · exact .bind (.modify fun s => congr s _ rfl rfl) fun _ => tells _
  | scopeReenter => exact closes.bind fun _ => opens
  | scopeClose => exact closes
  | scopeOpen => exact opens
  | returning | outsideFunction | delete | declareWithNew | smartPointer | assignment | declaration | unrecognized =>
    exact (Local.perform rfl (.inl trivial) : Local True (perform line _)).keeps fun s _ _ _ => congr s _ rfl rfl

/-- What is said of classes alone is kept by a line if it is kept by what the line is taken for. -/
theorem Keeps.executeLine_of_classes (each : ∀ line kind, Keeps I (perform line kind)) (line : Text) :
    Keeps I (executeLine line) := by
  have stated : Keeps I (statement line) := by
    refine read fun s _ => ?_
    split
    · exact .bind (.modify fun s => congr s _ rfl rfl) fun _ => each line _
    · exact .crash _
  intro s holds
  obtain ⟨lastError, notes, same⟩ := after_executeLine_eq line s
  rw [same]
  exact congr ((statement line).after s) _ rfl rfl (stated s holds)

end Elsewhere

end Action

/-- A class takes its shape before anything is made of it and keeps that from then on, so that whatever is on record
agrees with the table of classes. -/
theorem Session.Reachable.catalogued {s : Session} (reach : s.Reachable) : s.Catalogued := by
  have plain : ∀ operation ∈ [Operation.tick, .endScope, .reportLeaks], operation.layout? = none := by decide
  exact reach.holds_of_lines .fresh
    (fun _ catalogued operation around _ _ _ => catalogued.perform_plain operation (plain operation around) rfl rfl rfl)
    fun line _ catalogued => (Action.passes_executeLine catalogued line).catalogued

/-- A line takes no class away, and it changes none but the one that is open, which always stands in the table. All that
is on record as a layout, be it of an object or of what a pointer points to, dead or alive, is the layout that stands in
the table. -/
theorem closed_classes_stay {s : Session} (reach : s.Reachable) :
    (∀ line name layout, s.classes.get? name = some layout →
      (((Action.executeLine line).after s).classes.get? name).isSome ∧
        ((∀ o, s.openClass = some o → o.name ≠ name) →
          ((Action.executeLine line).after s).classes.get? name = some layout)) ∧
    (∀ o, s.openClass = some o → (s.classes.get? o.name).isSome) ∧
    ∀ b ∈ s.memory.blocks, ∀ layout, b.layout? = some layout → s.classes.get? layout.name = some layout := by
  have catalogued := reach.catalogued
  refine ⟨fun line => (Action.passes_executeLine catalogued line).stays, catalogued.opened, ?_⟩
  intro b member layout holds
  exact catalogued.listed layout (Memory.mem_layouts.mpr ⟨b, member, holds⟩)

/-- `B` is open and gains a member. `A` is closed, and there are an object of it and a pointer to another one. -/
theorem closed_classes_stay_of_open :
    ∃ (s : Session) (layout : ClassLayout), s.Reachable ∧ s.openClass.map (·.name) = some "B" ∧
      s.memory.layouts = [layout, layout, layout] ∧ s.classes.get? "A" = some layout ∧
      ((Action.executeLine "int y;".toList).after s).classes.get? "A" = some layout ∧
      ((Action.executeLine "int y;".toList).after s).classes.get? "B" ≠ s.classes.get? "B" := by
  obtain ⟨s, reach, opened, ⟨layout, there, onRecord, called⟩, changed⟩ : ∃ s : Session, s.Reachable ∧
      s.openClass.map (·.name) = some "B" ∧
      (∃ layout ∈ s.memory.layouts, s.memory.layouts = [layout, layout, layout] ∧ layout.name = "A") ∧
      ((Action.executeLine "int y;".toList).after s).classes.get? "B" ≠ s.classes.get? "B" :=
    ⟨(Action.execute ("struct A \x7b int x; \x7d;\nint main() \x7b\n  A a;\n  A* p = new A();\n" ++
      "  struct B \x7b\n    A inner;\n").toList).after {}, .script _ .fresh, by decide +kernel⟩
  obtain ⟨stays, _, agrees⟩ := closed_classes_stay reach
  obtain ⟨b, member, holds⟩ := Memory.mem_layouts.mp there
  have known := agrees b member layout holds
  rw [called] at known
  have other : ∀ o, s.openClass = some o → o.name ≠ "A" := by
    intro o is_open
    rw [is_open, Option.map_some, Option.some.injEq] at opened
    rw [opened]
    decide
  exact ⟨s, layout, reach, opened, onRecord, known, (stays _ _ _ known).2 other, changed⟩

end MemoryTrace
