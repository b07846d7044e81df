import MemoryTrace.Proofs.Memory.Unlogged
import MemoryTrace.Proofs.Session.Forms
import MemoryTrace.Proofs.Session.Stepwise

namespace MemoryTrace

open Script

namespace Session

variable {s t u : Session}

/-- The sessions are the same, but for the line, the last error, the notes and the log. If that is `logged`, the log is
the same as well. -/
def Resembles (logged : Prop) (s t : Session) : Prop :=
  ∃ log line lastError notes, (logged → log = s.memory.events) ∧ t = s.told log line lastError notes

namespace Resembles

variable {logged : Prop}

theorem refl (s : Session) : s.Resembles logged s :=
  ⟨s.memory.events, s.line, s.lastError, s.notes, fun _ => rfl, rfl⟩

/-- The memories of sessions that resemble each other do so. -/
theorem memory (alike : s.Resembles logged t) : s.memory.Resembles logged t.memory := by
  obtain ⟨log, _, _, _, kept, rfl⟩ := alike
  exact ⟨log, kept, rfl⟩

/-- Memory may change in the same way on both sides, and what does not count in any. -/
theorem become (alike : s.Resembles logged t) {m next : Memory} (same : m.Resembles logged next) (line line' : Nat)
    (lastError lastError' : Option ScriptError) (notes notes' : List Note) :
    ({ s with memory := m, line, lastError, notes } : Session).Resembles logged
      { t with memory := next, line := line', lastError := lastError', notes := notes' } := by
  obtain ⟨_, _, _, _, _, rfl⟩ := alike
  obtain ⟨log, kept, rfl⟩ := same
  exact ⟨log, line', lastError', notes', kept, rfl⟩

theorem finish (alike : s.Resembles logged t) : s.finish.Resembles logged t.finish :=
  alike.become alike.memory.reportLeaks s.line t.line none none _ _

end Resembles

/-- The sessions are the same, but for the log, the line, the last error and the notes. -/
def Alike (s t : Session) : Prop := ∃ log line lastError notes, t = s.told log line lastError notes

/-- To be alike is to resemble each other but for the log. -/
theorem alike_iff : s.Alike t ↔ s.Resembles False t := by simp [Alike, Resembles]

namespace Alike

theorem symm (alike : s.Alike t) : t.Alike s := by
  obtain ⟨_, _, _, _, rfl⟩ := alike
  exact ⟨s.memory.events, s.line, s.lastError, s.notes, rfl⟩

theorem trans (first : s.Alike t) (second : t.Alike u) : s.Alike u := by
  obtain ⟨_, _, _, _, rfl⟩ := first
  obtain ⟨log, line, lastError, notes, rfl⟩ := second
  exact ⟨log, line, lastError, notes, rfl⟩

theorem finish (s : Session) : s.Alike s.finish := by
  obtain ⟨log, same⟩ := Memory.Alike.reportLeaks s.memory
  refine ⟨log, s.line, none, s.finish.notes, ?_⟩
  unfold Session.finish Session.told
  rw [same]

end Alike

/-- Leaving a scope does not go to another line. -/
theorem leaveScope_line (s : Session) : s.leaveScope.line = s.line := by
  obtain ⟨notes, left⟩ := s.leaveScope_eq
  rw [left]

/-- Sessions that resemble each other leave a scope alike. -/
theorem Resembles.leaveScope {logged : Prop} (alike : s.Resembles logged t) :
    s.leaveScope.Resembles logged t.leaveScope := by
  have left := alike.memory.lift (f := fun m => (m.perform .endScope).2) fun _ _ alike => alike.endScope
  obtain ⟨notes, first⟩ := s.leaveScope_eq
  obtain ⟨notes', second⟩ := t.leaveScope_eq
  rw [first, second]
  exact alike.become left s.line t.line s.lastError t.lastError notes notes'

theorem Resembles.reopen {logged : Prop} (alike : s.Resembles logged t) (scopeDepth : Nat) (inMain : Bool) :
    ({ s with scopeDepth, inMain } : Session).Resembles logged { t with scopeDepth, inMain } := by
  obtain ⟨log, line, lastError, notes, kept, rfl⟩ := alike
  exact ⟨log, line, lastError, notes, kept, rfl⟩

end Session

namespace Action

variable {α β : Type} {logged : Prop} {s t : Session}

/-- Two runs, on lines `n` and `k`, have come to the same. -/
inductive Agree (logged : Prop) (n k : Nat) :
    EStateM.Result Failure Session α → EStateM.Result Failure Session α → Prop
  | ok {s t : Session} (x : α) (alike : s.Resembles logged t) (first : s.line = n) (second : t.line = k) :
      Agree logged n k (.ok x s) (.ok x t)
  | script {s t : Session} (cause : Cause) (alike : s.Resembles logged t) :
      Agree logged n k (.error (.script { line := n, cause }) s) (.error (.script { line := k, cause }) t)
  | crash {s t : Session} (c : Crash) (alike : s.Resembles logged t) :
      Agree logged n k (.error (.crash c) s) (.error (.crash c) t)

/-- Two runs agree if memory changes in the same way on both sides. -/
theorem Agree.become (alike : s.Resembles logged t) {m next : Memory} (same : m.Resembles logged next) (x : α) :
    Agree logged s.line t.line (.ok x { s with memory := m }) (.ok x { t with memory := next }) :=
  .ok x (alike.become same s.line t.line s.lastError t.lastError s.notes t.notes) rfl rfl

/-- The action does the same in sessions that resemble each other, with the log or without. -/
def Blind (logged : Prop) (a : Action α) : Prop :=
  ∀ s t, s.Resembles logged t → Agree logged s.line t.line (a s) (a t)

namespace Blind

protected theorem pure (x : α) : Blind logged (Pure.pure x) := fun _ _ alike => .ok x alike rfl rfl

theorem fail (cause : Cause) : Blind logged (Action.fail cause : Action α) := fun _ _ alike => .script cause alike

theorem crash (c : Crash) : Blind logged (throw (.crash c) : Action α) := fun _ _ alike => .crash c alike

protected theorem modify {f : Session → Session}
    (told : ∀ s log line lastError notes, f (s.told log line lastError notes) = (f s).told log line lastError notes) :
    Blind logged (modify f) := by
  rintro s _ ⟨log, line, lastError, notes, kept, rfl⟩
  have itself : f s = (f s).told s.memory.events s.line s.lastError s.notes :=
    told s s.memory.events s.line s.lastError s.notes
  have stays : (f s).line = s.line := by rw [itself, Session.told]
  have unlogged : (f s).memory.events = s.memory.events := by rw [itself, Session.told]
  refine .ok () ⟨log, line, lastError, notes, fun counts => unlogged ▸ kept counts, told ..⟩ stays ?_
  change (f (s.told log line lastError notes)).line = line
  rw [told]
  rfl

theorem note (remark : Remark) : Blind logged (note remark) := fun s t alike =>
  .ok () (alike.become alike.memory s.line t.line s.lastError t.lastError _ _) rfl rfl

protected theorem bind {a : Action α} {f : α → Action β} (first : Blind logged a) (rest : ∀ x, Blind logged (f x)) :
    Blind logged (a >>= f) := by
  intro s t alike
  have agreed := first s t alike
  simp only [bind, EStateM.bind]
  generalize a s = left at agreed ⊢
  generalize a t = right at agreed ⊢
  generalize s.line = n at agreed ⊢
  generalize t.line = k at agreed ⊢
  cases agreed with
  | @ok u v x alike first second =>
    subst first second
    exact rest x u v alike
  | script cause alike => exact .script cause alike
  | crash c alike => exact .crash c alike

/-- A blind action may read the session, but nothing of what is told. -/
theorem read {f : Session → Action α}
    (told : ∀ s log line lastError notes, f (s.told log line lastError notes) = f s) (each : ∀ s, Blind logged (f s)) :
    Blind logged (get >>= f) := by
  rintro s _ ⟨log, line, lastError, notes, kept, rfl⟩
  have agreed := each s s _ ⟨log, line, lastError, notes, kept, rfl⟩
  rw [get_bind, get_bind, told]
  exact agreed

theorem plain {a : Action α} (plain : Plain a) : Blind logged a := by
  induction plain with
  | pure x => exact .pure x
  | fail => exact .fail _
  | crash c => exact .crash c
  | note remark => exact .note remark
  | modify _ _ told => exact .modify told
  | read told _ each => exact .read told each
  | bind _ _ first rest => exact first.bind rest

theorem discard {a : Action α} (blind : Blind logged a) : Blind logged (discard a : Action PUnit) :=
  blind.bind fun _ => .pure _

protected theorem forM {list : List α} {f : α → Action PUnit} (each : ∀ x, Blind logged (f x)) :
    Blind logged (list.forM f) := by
  induction list with
  | nil => exact .pure _
  | cons x rest ih => exact (each x).bind fun _ => ih

/-- What memory is asked for comes to the same, if it does so on memories that are alike. -/
theorem attempt {operation : Memory → Except MemoryError Memory}
    (same : ∀ m next, m.Alike next → Memory.AlikeOutcome (operation m) (operation next)) :
    Blind logged (attempt operation) := by
  intro s t alike
  unfold Action.attempt
  rw [get_bind, get_bind]
  rcases alike.memory.eq_or_alike with nothing | ⟨unlogged, other⟩
  · rw [nothing]
    cases operation s.memory with
    | ok done => exact .become alike (.refl done) ()
    | error e => exact .script (.rejected e) alike
  · have outcome := same _ _ other
    generalize operation s.memory = left at outcome ⊢
    generalize operation t.memory = right at outcome ⊢
    cases outcome with
    | ok done => exact .become alike (.of_alike unlogged done) ()
    | refused e => exact .script (.rejected e) alike

theorem deallocateIfAny (target : Option BlockId) : Blind logged (Action.attempt (·.deallocateIfAny target)) :=
  attempt fun _ _ alike => alike.deallocateIfAny target

theorem assignPointer (pointer : BlockId) (target : Option BlockId) :
    Blind logged (Action.attempt (·.assignPointer pointer target)) :=
  attempt fun _ _ alike => alike.assignPointer pointer target

/-- A creation that does not look at the log is blind. -/
theorem create {make : Memory → BlockId × Memory}
    (blind : ∀ (m : Memory) log, ∃ more, make { m with events := log } =
      ((make m).1, { (make m).2 with events := more })) : Blind logged (create make) := by
  intro s t alike
  have number : (make t.memory).1 = (make s.memory).1 := by
    obtain ⟨log, _, same⟩ := alike.memory
    obtain ⟨more, made⟩ := blind s.memory log
    rw [same, made]
  have made := alike.memory.lift (f := fun m => (make m).2) fun _ _ alike => (alike.create blind).2
  have ran : Action.create make t = .ok (make s.memory).1 { t with memory := (make t.memory).2 } := by
    rw [← number]
    rfl
  rw [ran]
  exact .become alike made _

theorem bindName (name : Text) (id : BlockId) : Blind logged (bindName name id) := .modify fun _ _ _ _ _ => rfl

theorem bindSharedCopy (source : BlockId) (name : Text) : Blind logged (bindSharedCopy source name) := by
  intro s t alike
  unfold Action.bindSharedCopy
  rw [get_bind, get_bind]
  have copies {id : BlockId} {copied other : Memory} (made : copied.Resembles logged other) :=
    bindName name id _ _ (alike.become made s.line t.line s.lastError t.lastError s.notes t.notes)
  rcases alike.memory.eq_or_alike with nothing | ⟨unlogged, other⟩
  · rw [nothing]
    cases s.memory.copyShared source name.toName with
    | ok made => exact copies (.refl made.2)
    | error e => exact .script (.rejected e) alike
  · rcases other.copyShared source name.toName with ⟨e, left, right⟩ | ⟨id, copied, other, left, right, made⟩
    · rw [left, right]
      exact .script (.rejected e) alike
    · rw [left, right]
      exact copies (.of_alike unlogged made)

theorem bindPointer (name : Text) (discipline : Discipline) (pointee : Option ClassLayout) :
    Blind logged (bindPointer name discipline pointee) :=
  (create fun _ _ => ⟨_, rfl⟩).bind fun id => (bindName name id).bind fun _ => .pure id

theorem allocatePointee (typeText : Text) (discipline : Discipline) (owner : Text) :
    Blind logged (allocatePointee typeText discipline owner) := by
  have array (name : String) (unit count : Nat) : Blind logged (do
      let size ← arraySize name unit count
      Action.create (·.allocate name size discipline)) :=
    (plain (.arraySize ..)).bind fun _ => create fun _ _ => ⟨_, rfl⟩
  refine .read (fun _ _ _ _ _ => rfl) fun s => ?_
  split
  · exact array _ _ _
  · split
    · exact array _ _ _
    · exact create fun _ _ => ⟨_, rfl⟩
  · exact .fail _

theorem reseat (id : BlockId) (target : Option BlockId) : Blind logged (reseat id target) :=
  .read (fun _ _ _ _ _ => rfl) fun _ => (deallocateIfAny _).bind fun _ => assignPointer _ _

theorem assignFrom (dest : BlockId) (name : Text) (source : BlockId) (moved : Bool) :
    Blind logged (assignFrom dest name source moved) := by
  unfold Action.assignFrom
  split
  · exact .pure _
  · refine .read (fun _ _ _ _ _ => rfl) fun s => ?_
    split
    · exact attempt fun _ _ alike => alike.moveUnique source dest
    · exact (assignPointer _ _).bind fun _ => assignPointer _ _
    · exact (assignPointer _ _).bind fun _ => bindSharedCopy _ _
    · exact assignPointer _ _

/-- What a pointer is given does not depend on the log. -/
theorem storePointer (id : BlockId) (name value : Text) : Blind logged (storePointer id name value) := by
  have made (typeText : Text) (discipline : Discipline) : Blind logged (do
      let target ← Action.allocatePointee typeText discipline name
      Action.reseat id (some target)) :=
    (allocatePointee _ _ _).bind fun _ => reseat _ _
  refine .read (fun _ _ _ _ _ => rfl) fun s => ?_
  split
  · exact reseat _ _
  · split
    · exact made _ _
    · split
      · split
        · exact made _ _
        · exact .fail _
      · split
        · exact (plain (.lookup _)).bind fun _ => assignPointer _ _
        · refine (plain (.pointerSource? _)).bind fun source => ?_
          split
          · exact assignFrom _ _ _ _
          · exact .note _

theorem assign (target value : Text) (compound : Bool) : Blind logged (assign target value compound) := by
  unfold Action.assign
  split
  · split
    · exact .pure _
    · exact (plain (.lookup _)).discard
  · split
    · exact .note _
    · refine (plain (.lookup _)).bind fun id => .read (fun _ _ _ _ _ => rfl) fun s => ?_
      split
      · exact storePointer _ _ _
      · exact .pure _

theorem declare (d : Declarator) : Blind logged (declare d) := by
  have bound {make : Memory → BlockId × Memory}
      (blind : ∀ (m : Memory) log, ∃ more, make { m with events := log } =
        ((make m).1, { (make m).2 with events := more })) : Blind logged (do
      let id ← Action.create make
      Action.bindName d.name id
      return some id) :=
    (create blind).bind fun id => (bindName d.name id).bind fun _ => .pure _
  have form := declare_form d
  generalize Action.declare d = a at form ⊢
  induction form with
  | array unit count => exact (plain (.arraySize ..)).bind fun _ => bound fun _ _ => ⟨_, rfl⟩
  | pointer pointee => exact bound fun _ _ => ⟨_, rfl⟩
  | object layout => exact bound fun _ _ => ⟨_, rfl⟩
  | unknown => exact .fail _
  | unmodelled => exact (note _).bind fun _ => .pure _
  | read told _ each => exact .read told each

theorem declareAuto (name init : Text) : Blind logged (declareAuto name init) := by
  refine .read (fun _ _ _ _ _ => rfl) fun s => ?_
  split
  · exact (bindPointer _ _ _).bind fun id => storePointer _ _ _
  · split
    · exact (bindPointer _ _ _).bind fun id => storePointer _ _ _
    · refine (plain (.pointerSource? _)).bind fun source => ?_
      split
      · dsimp only
        split
        · exact bindSharedCopy _ _
        · exact (bindPointer _ _ _).bind fun id => assignFrom _ _ _ _
      · exact (create fun _ _ => ⟨_, rfl⟩).bind fun id => bindName _ _

theorem declareOne (d : Declarator) : Blind logged (declareOne d) := by
  unfold Action.declareOne
  split
  · exact declareAuto _ _
  · refine (declare d).bind fun declared => ?_
    split
    · refine .read (fun _ _ _ _ _ => rfl) fun s => ?_
      split
      · exact storePointer _ _ _
      · exact .pure _
    · exact .pure _

theorem declareSmart (name : Text) (discipline : Discipline) (pointee : Text) (init : Option Text) :
    Blind logged (declareSmart name discipline pointee init) := by
  refine .read (fun _ _ _ _ _ => rfl) fun s => ?_
  dsimp only
  split
  · exact (bindPointer _ _ _).discard
  · refine (plain (.pointerSource? _)).bind fun source => ?_
    split
    · refine .read (fun _ _ _ _ _ => rfl) fun s => ?_
      split
      · exact bindSharedCopy _ _
      · exact (bindPointer _ _ _).bind fun id => assignFrom _ _ _ _
    · exact (bindPointer _ _ _).bind fun id => storePointer _ _ _

theorem assignment (line : Text) : Blind logged (assignment line) := by
  refine (plain (.declaration? _)).bind fun declared => ?_
  split
  · exact .forM declareOne
  · exact assign _ _ _
  · exact .pure _

theorem declaration (line : Text) : Blind logged (declaration line) := by
  refine (plain (.declaration? _)).bind fun declared => ?_
  split
  · exact .forM declareOne
  · exact .pure _

theorem smartPointer (line : Text) : Blind logged (smartPointer line) := by
  have form := smartPointer_form line
  generalize Action.smartPointer line = a at form ⊢
  cases form with
  | declare name discipline pointee init => exact declareSmart _ _ _ _
  | assign place value => exact assign _ _ _
  | plain only => exact plain only

theorem delete (line : Text) : Blind logged (delete line) := by
  unfold Action.delete
  dsimp only
  split
  · exact .fail _
  · refine (plain (.lookup _)).bind fun id => .read (fun _ _ _ _ _ => rfl) fun s => ?_
    split
    · exact .fail _
    · split
      · exact .fail _
      · exact (deallocateIfAny _).bind fun _ => assignPointer _ _

/-- The end of a scope comes to the same, but for the line that it is noted on. -/
theorem closeScope : Blind logged closeScope := by
  intro s t alike
  have depth : t.scopeDepth = s.scopeDepth := by
    obtain ⟨_, _, _, _, _, rfl⟩ := alike
    rfl
  have main : t.inMain = s.inMain := by
    obtain ⟨_, _, _, _, _, rfl⟩ := alike
    rfl
  have left := alike.leaveScope.reopen (s.scopeDepth - 1) (s.scopeDepth ≠ 1)
  have first := s.leaveScope_line
  have second := t.leaveScope_line
  unfold Action.closeScope
  rw [get_bind, get_bind, depth, main]
  by_cases outside : s.scopeDepth = 0
  · rw [if_pos outside, if_pos outside]
    exact .script _ alike
  · rw [if_neg outside, if_neg outside]
    by_cases inside : s.inMain
    · rw [if_pos inside, if_pos inside]
      by_cases last : s.scopeDepth = 1
      · rw [if_pos last, if_pos last]
        exact .ok () (left.become left.memory _ _ _ _ _ _) first second
      · rw [if_neg last, if_neg last]
        exact .ok () left first second
    · rw [if_neg inside, if_neg inside]
      exact .ok () (alike.reopen (s.scopeDepth - 1) s.inMain) rfl rfl

theorem perform (line : Text) (kind : StatementKind) : Blind logged (perform line kind) := by
  cases kind with
  | classHeader => exact plain (.beginClass line)
  | classBody => exact plain (.classBody line)
  | entryFunction => exact plain (.enterMain line)
  | scopeReenter => exact closeScope.bind fun _ => plain .openScope
  | scopeClose => exact closeScope
  | scopeOpen => exact plain .openScope
  | delete => exact delete line
  | declareWithNew => exact assignment line
  | smartPointer => exact smartPointer line
  | assignment => exact assignment line
  | declaration => exact declaration line
  | returning | outsideFunction | unrecognized => exact .pure _

/-- What a line does depends neither on its number nor on what was logged, noted or remembered before. -/
theorem statement (line : Text) : Blind logged (statement line) := by
  refine .read (fun _ _ _ _ _ => rfl) fun s => ?_
  split
  · exact (note _).bind fun _ => perform line _
  · exact .crash _

/-- The error that is remembered and noted is of no consequence. -/
theorem executeLine (line : Text) : Blind logged (executeLine line) := by
  intro s t alike
  have agreed := statement line s t alike
  unfold Action.executeLine
  generalize Action.statement line s = left at agreed ⊢
  generalize Action.statement line t = right at agreed ⊢
  cases agreed with
  | ok x alike first second => exact .ok x alike first second
  | script cause alike => exact .script cause (alike.become alike.memory _ _ _ _ _ _)
  | crash c alike => exact .crash c alike

end Blind

/-- Lines with the same code do the same, each under its own number. -/
theorem agree_executeCodeLine (first second : CodeLine) (same : second.code = first.code)
    (alike : s.Resembles logged t) :
    Agree logged first.number second.number (executeCodeLine first s) (executeCodeLine second t) := by
  have ticked := alike.become alike.memory.tick first.number second.number s.lastError t.lastError s.notes t.notes
  have agreed := Blind.executeLine first.code _ _ ticked
  unfold executeCodeLine
  rw [same]
  exact agreed

end Action

end MemoryTrace
