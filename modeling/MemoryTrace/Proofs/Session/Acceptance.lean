import MemoryTrace.Proofs.Session.Failures
import MemoryTrace.Proofs.Session.Permanence

namespace MemoryTrace

open Script

/-- The session has a new pointer, which is null, and it has its old pointers. -/
structure Session.Gains (s t : Session) (d : Discipline) (id : BlockId) : Prop where
  sound : t.memory.Sound
  held : t.memory.HasPointer d id
  null : t.target? id = none
  kept : ∀ d' other, s.memory.HasPointer d' other → t.memory.HasPointer d' other

namespace Action

variable {α : Type} {s t : Session} {id : BlockId} {d : Discipline}

/-- The action may fail, but memory is not why. -/
abbrev Accepted (a : Action α) (s : Session) : Prop := FailsOnly a s fun e _ => e.refusal? = none

/-- A session gains a pointer where memory pushes one. -/
theorem gains_of_pushes {b : Block} {p : Pointer} (pushed : s.memory.Pushes t.memory b) (sound : s.memory.Sound)
    (holds : b.pointer? = some p) : s.Gains t p.discipline b.id := by
  obtain ⟨held, null⟩ := pushed.livePointer sound holds
  exact ⟨pushed.sound sound, held.hasPointer, (Session.target?_of_held held).trans null, fun _ _ => pushed.hasPointer⟩

/-- A bound pointer is a new one, and the old ones are still there. -/
theorem bindPointer_gains {name : Text} {pointee : Option ClassLayout} (sound : s.memory.Sound)
    (made : bindPointer name d pointee s = .ok id t) : s.Gains t d id := by
  obtain ⟨b, pushed, _, holds⟩ := s.memory.createPointer_pushes name.toName d pointee
  have number : b.id = id := by
    cases made
    exact pushed.id
  have created : s.memory.Pushes t.memory b := by
    cases made
    exact pushed
  exact number ▸ gains_of_pushes created sound holds

/-- What is declared is a new block. -/
theorem declare_pushes {declarator : Declarator} (made : declare declarator s = .ok (some id) t) :
    ∃ b, s.memory.Pushes t.memory b ∧ b.id = id := by
  have bound {u : Session} {make : Memory → BlockId × Memory} (pushes : ∃ b, u.memory.Pushes (make u.memory).2 b)
      (number : (make u.memory).1 = u.memory.nextId) (made : (do
        let id ← create make
        bindName declarator.name id
        return some id) u = .ok (some id) t) : ∃ b, u.memory.Pushes t.memory b ∧ b.id = id := by
    cases made
    obtain ⟨b, pushed⟩ := pushes
    exact ⟨b, pushed, pushed.id.trans number.symm⟩
  have form := declare_form declarator
  generalize declare declarator = a at form made
  induction form with
  | array unit count =>
    obtain ⟨size, u, fits, rest⟩ := bind_eq_ok.mp made
    obtain rfl := arraySize_eq_ok fits
    obtain ⟨b, pushed, _⟩ := u.memory.createVariable_pushes declarator.name.toName size
    exact bound ⟨b, pushed⟩ rfl rest
  | pointer pointee =>
    obtain ⟨b, pushed, _⟩ := s.memory.createPointer_pushes declarator.name.toName .raw pointee
    exact bound ⟨b, pushed⟩ rfl made
  | object layout =>
    obtain ⟨b, pushed, _⟩ := s.memory.createObject_pushes declarator.name.toName layout
    exact bound ⟨b, pushed⟩ rfl made
  | unknown => cases made
  | unmodelled => cases made
  | read _ _ each => exact each s made

namespace Accepted

/-- What fails before it changes anything is not refused by memory. -/
theorem early {a : Action α} (fails : FailsOnly a s s.Early) : Accepted a s := fails.mono fun _ _ early => early.1

theorem bindPointer (name : Text) (d : Discipline) (pointee : Option ClassLayout) :
    Accepted (bindPointer name d pointee) s :=
  (FailsOnly.create _).bind fun _ _ _ => (FailsOnly.modify _).bind fun _ _ _ => .pure _

/-- A new pointer can be given any value. -/
theorem initialise {u : Session} (gains : u.Gains s d id) (name value : Text) :
    Accepted (storePointer id name value) s := by
  refine (FailsOnly.storePointer name value gains.sound gains.held).mono fun e t fails => ?_
  rcases fails with early | freed
  · exact early.1
  · exact absurd (gains.null.symm.trans freed.aimed) nofun

theorem declare (declarator : Declarator) : Accepted (declare declarator) s := by
  have bound (make : Memory → BlockId × Memory) (u : Session) : Accepted (do
      let id ← create make
      bindName declarator.name id
      return some id) u :=
    (FailsOnly.create _).bind fun _ _ _ => (FailsOnly.modify _).bind fun _ _ _ => .pure _
  have form := declare_form declarator
  generalize Action.declare declarator = a at form ⊢
  induction form with
  | array unit count => exact (early (.arraySize _ _ _)).bind fun _ _ _ => bound _ _
  | pointer pointee => exact bound _ _
  | object layout => exact bound _ _
  | unknown => exact .fail rfl
  | unmodelled => exact (FailsOnly.modify _).bind fun _ _ _ => .pure _
  | read _ _ each => exact .read (each s)

/-- A variable of a type to be found out is declared without a refusal. -/
theorem declareAuto (name init : Text) (sound : s.memory.Sound) : Accepted (declareAuto name init) s := by
  refine .read ?_
  split
  · exact (bindPointer _ _ _).bind fun id t made => initialise (bindPointer_gains sound made) _ _
  · split
    · exact (bindPointer _ _ _).bind fun id t made => initialise (bindPointer_gains sound made) _ _
    · refine (early (.pointerSource? _)).bind fun source t found => ?_
      obtain ⟨rfl, pointers⟩ := pointerSource?_eq_ok found
      split
      · rename_i other moved
        obtain ⟨_, source_held⟩ := pointers other moved rfl
        dsimp only
        split
        · rename_i copies
          obtain ⟨b, p, held, _⟩ := source_held
          rw [Session.pointer?_of_held held] at copies
          exact .bindSharedCopy name ⟨b, p, held, copies.1⟩
        · refine (bindPointer _ _ _).bind fun id t made => ?_
          have gains := bindPointer_gains sound made
          exact .assignFrom name moved gains.sound gains.held (gains.kept _ _ source_held)
      · exact (FailsOnly.create _).bind fun _ _ _ => .modify _

theorem declareSmart (name : Text) (discipline : Discipline) (pointee : Text) (init : Option Text)
    (sound : s.memory.Sound) : Accepted (declareSmart name discipline pointee init) s := by
  refine .read ?_
  dsimp only
  split
  · exact (bindPointer _ _ _).discard
  · refine (early (.pointerSource? _)).bind fun source t found => ?_
    obtain ⟨rfl, pointers⟩ := pointerSource?_eq_ok found
    split
    · rename_i other moved
      obtain ⟨_, source_held⟩ := pointers other moved rfl
      refine .read ?_
      split
      · rename_i copies
        obtain ⟨b, p, held, _⟩ := source_held
        rw [Session.discipline?_of_held held, Option.some.injEq] at copies
        exact .bindSharedCopy name ⟨b, p, held, copies.2.2⟩
      · refine (bindPointer _ _ _).bind fun id t made => ?_
        have gains := bindPointer_gains sound made
        exact .assignFrom name moved gains.sound gains.held (gains.kept _ _ source_held)
    · exact (bindPointer _ _ _).bind fun id t made => initialise (bindPointer_gains sound made) _ _

theorem declareOne (declarator : Declarator) (sound : s.memory.Sound) : Accepted (declareOne declarator) s := by
  unfold Action.declareOne
  split
  · exact declareAuto _ _ sound
  · refine (declare declarator).bind fun declared t made => ?_
    split
    · refine .read ?_
      split
      · rename_i holds
        obtain ⟨b, pushed, rfl⟩ := declare_pushes made
        obtain ⟨p, holds⟩ := Option.isSome_iff_exists.mp holds
        rw [Session.pointer?, (pushed.sound sound).block?_of_mem pushed.member, Option.bind_some] at holds
        exact initialise (gains_of_pushes pushed sound holds) _ _
      · exact .pure _
    · exact .pure _

/-- The declarators of one declaration come one after the other. -/
theorem declarators (list : List Declarator) (sound : s.Sound) : Accepted (list.forM Action.declareOne) s := by
  refine FailsOnly.forM (fun declarator t sound => declareOne declarator sound.memory)
    (fun declarator t u sound ran => ?_) sound
  have changes := (Leads.declareOne (s := t) declarator (Nat.zero_le _)).1
  rw [after_of_ok ran] at changes
  exact changes.keeps (fun _ _ => Session.Change.sound) sound

/-- An assignment is accepted, as long as no pointer is its own target. -/
theorem assign (target value : Text) (compound : Bool) (sound : s.memory.Sound) (selfless : s.memory.Selfless) :
    Accepted (assign target value compound) s := by
  refine (FailsOnly.assign target value compound sound).mono fun e t fails => ?_
  rcases fails with early | ⟨id, freed⟩
  · exact early.1
  · exact absurd selfless freed.not_selfless

theorem delete (line : Text) (sound : s.memory.Sound) (selfless : s.memory.Selfless) : Accepted (delete line) s := by
  refine (FailsOnly.delete line sound).mono fun e t fails => ?_
  rcases fails with early | ⟨id, freed⟩
  · exact early.1
  · exact absurd selfless freed.not_selfless

theorem declaration?_bind {rest : Option (List Declarator) → Action α} (line : Text)
    (each : ∀ declared, Accepted (rest declared) s) : Accepted (Action.declaration? line >>= rest) s := by
  refine (early (.declaration? line)).bind fun declared t ran => ?_
  obtain rfl := declaration?_eq_ok ran
  exact each declared

theorem assignment (line : Text) (sound : s.Sound) (selfless : s.memory.Selfless) : Accepted (assignment line) s := by
  refine declaration?_bind line fun declared => ?_
  split
  · exact declarators _ sound
  · exact assign _ _ _ sound.memory selfless
  · exact .pure _

theorem declaration (line : Text) (sound : s.Sound) : Accepted (declaration line) s := by
  refine declaration?_bind line fun declared => ?_
  split
  · exact declarators _ sound
  · exact .pure _

theorem smartPointer (line : Text) (sound : s.memory.Sound) (selfless : s.memory.Selfless) :
    Accepted (smartPointer line) s := by
  have form := smartPointer_form line
  generalize Action.smartPointer line = a at form ⊢
  cases form with
  | declare name discipline pointee init => exact declareSmart _ _ _ _ sound
  | assign place value => exact assign _ _ _ sound selfless
  | plain plain => exact .plain plain s

/-- The end of a scope asks memory for nothing that it could refuse. -/
theorem closeScope : Accepted closeScope s := by
  refine FailsOnly.closeScope.mono ?_
  rintro _ _ ⟨rfl, -⟩
  rfl

/-- Whatever a line is taken for, what it asks of memory is accepted. -/
theorem perform (line : Text) (kind : StatementKind) (sound : s.Sound) (selfless : s.memory.Selfless) :
    Accepted (perform line kind) s := by
  cases kind with
  | classHeader => exact .plain (.beginClass line) s
  | classBody => exact .plain (.classBody line) s
  | entryFunction => exact .plain (.enterMain line) s
  | scopeReenter => exact closeScope.bind fun _ t _ => .plain .openScope t
  | scopeClose => exact closeScope
  | scopeOpen => exact .plain .openScope s
  | delete => exact delete line sound.memory selfless
  | declareWithNew => exact assignment line sound selfless
  | smartPointer => exact smartPointer line sound.memory selfless
  | assignment => exact assignment line sound selfless
  | declaration => exact declaration line sound
  | returning | outsideFunction | unrecognized => exact .pure _

/-- The checks of the statements themselves see to it that memory has nothing to refuse. -/
theorem statement (line : Text) (sound : s.Sound) (selfless : s.memory.Selfless) : Accepted (statement line) s := by
  refine .read ?_
  split
  · exact (FailsOnly.modify _).bind fun _ t noted => by
      cases noted
      exact perform line _ ⟨sound.memory, sound.named⟩ selfless
  · exact .crash rfl

end Accepted

end Action

/-- As long as no pointer is its own target, memory never refuses what a line asks for. Where the line leaves a scope,
the owner that goes can free its pointee too. -/
theorem lines_never_refused {s : Session} (reach : s.Reachable) (selfless : s.memory.Selfless) (line : Text) :
    (∀ number error t, Action.executeLine line s ≠ .error (.script { line := number, cause := .rejected error }) t) ∧
    (∀ exit, s.memory.endScope? = some exit → exit.refused = none) := by
  refine ⟨fun number error t failed => ?_, fun exit left => reach.sound.memory.endScope_accepted selfless left⟩
  obtain ⟨u, _, _, ran, _⟩ := Action.executeLine_eq_error failed
  exact absurd (Action.Accepted.statement line reach.sound selfless _ u ran) nofun

/-- A second `delete` fails, but memory is not asked for it. The scope that is left then has an owner to free. -/
theorem lines_never_refused_of_delete :
    ∃ s : Session, s.Reachable ∧ s.memory.Selfless ∧
      ((Action.executeLine "delete p;".toList).after s).lastError = some { line := 4, cause := .nullDelete "p" } ∧
      (∀ number error t,
        Action.executeLine "delete p;".toList s ≠ .error (.script { line := number, cause := .rejected error }) t) ∧
      ∃ exit, s.memory.endScope? = some exit ∧ exit.refused = none := by
  obtain ⟨s, reach, selfless, failed, left⟩ : ∃ s : Session, s.Reachable ∧
      (∀ b ∈ s.memory.blocks, b.target? ≠ some b.id) ∧
      ((Action.executeLine "delete p;".toList).after s).lastError = some { line := 4, cause := .nullDelete "p" } ∧
      s.memory.endScope?.isSome :=
    ⟨(Action.execute
      "int main() \x7b\n  int* p = new int;\n  delete p;\n  std::unique_ptr<int> u(new int);\n".toList).after {},
      .script _ .fresh, by decide +kernel⟩
  obtain ⟨exit, left⟩ := Option.isSome_iff_exists.mp left
  obtain ⟨accepted, freed⟩ := lines_never_refused reach selfless "delete p;".toList
  exact ⟨s, reach, selfless, failed, accepted, exit, left, freed exit left⟩

end MemoryTrace
