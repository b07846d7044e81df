import Mathlib.Logic.Relation
import MemoryTrace.Proofs.Memory.Blocks
import MemoryTrace.Proofs.Session.Forms

namespace MemoryTrace

open Script

/-- The name under which the operation pushes a block on the stack. -/
def Operation.declares? : Operation → Option String
  | .createVariable name _ | .createPointer name _ _ | .createObject name _ | .copyShared _ name => some name
  | _ => none

theorem Operation.ne_reset_of_declares {operation : Operation} {name : String}
    (declares : operation.declares? = some name) : operation ≠ .reset := by
  rintro rfl
  contradiction

namespace Session

/-- The block is live, or it is new: numbers from `base` on count as new. -/
def AtHand (base : BlockId) (s : Session) (id : BlockId) : Prop :=
  base ≤ id ∨ ∃ b, s.memory.block? id = some b ∧ b.live

/-- A pointer at hand points to the block. -/
def Reaches (base : BlockId) (s : Session) (id : BlockId) : Prop :=
  ∃ pointer, s.AtHand base pointer ∧ s.target? pointer = some id

/-- What statements ask for. They free what a pointer at hand points to, and they aim a pointer at that, at what a name
denotes, or at what is new. -/
def Permits (base : BlockId) (s : Session) : Operation → Prop
  | .deallocate id => s.Reaches base id
  | .assignPointer _ (some id) => base ≤ id ∨ (∃ name, s.bindings.get? name = some id) ∨ s.Reaches base id
  | .reset => False
  | _ => True

/-- One change that a statement makes. A new block on the stack always gets its name. -/
inductive Change (base : BlockId) (s t : Session) : Prop
  | perform (operation : Operation) (permitted : s.Permits base operation) (unnamed : operation.declares? = none)
      (memory : t.memory = (s.memory.perform operation).2) (bindings : t.bindings = s.bindings)
  | declare (operation : Operation) {name : String} (declares : operation.declares? = some name)
      (made : s.memory.perform operation = (.created s.memory.nextId, t.memory))
      (bindings : t.bindings = s.bindings.set name s.memory.nextId)
  | aside (memory : t.memory = s.memory) (bindings : t.bindings = s.bindings)

/-- Any number of changes, one after the other. -/
abbrev Changes (base : BlockId) : Session → Session → Prop := Relation.ReflTransGen (Change base)

variable {base : BlockId} {s t : Session}

theorem Permits.ne_reset {operation : Operation} (permitted : s.Permits base operation) : operation ≠ .reset := by
  rintro rfl
  exact permitted

theorem Change.nextId_le (change : s.Change base t) : s.memory.nextId ≤ t.memory.nextId := by
  cases change with
  | perform operation permitted _ memory _ => exact memory ▸ Memory.nextId_le_perform _ permitted.ne_reset
  | declare operation declares made _ =>
    have more := Memory.nextId_le_perform s.memory (Operation.ne_reset_of_declares declares)
    rwa [made] at more
  | aside memory _ => exact Nat.le_of_eq (congrArg Memory.nextId memory).symm

theorem Changes.nextId_le (changes : s.Changes base t) : s.memory.nextId ≤ t.memory.nextId := by
  induction changes with
  | refl => exact Nat.le_refl _
  | tail _ last ih => exact Nat.le_trans ih last.nextId_le

/-- `id` is new, and what was at hand still is. -/
structure Adds (base : BlockId) (s : Session) (id : BlockId) (t : Session) : Prop where
  fresh : base ≤ id
  atHand : ∀ other, s.AtHand base other → t.AtHand base other

/-- What was at hand still is when a block is pushed. -/
theorem AtHand.push {id : BlockId} {b : Block} (there : s.AtHand base id)
    (blocks : t.memory.blocks = s.memory.blocks ++ [b]) : t.AtHand base id := by
  rcases there with fresh | ⟨c, found, live⟩
  · exact .inl fresh
  · refine .inr ⟨c, ?_, live⟩
    rw [Memory.block?, blocks, List.find?_append]
    rw [Memory.block?] at found
    rw [found, Option.some_or]

end Session

namespace Action

variable {α β : Type} {base : BlockId} {s t : Session} {post : α → Session → Prop}

/-- Started in `s` the action makes changes only, and its answer and the session then are as `post` says. -/
def Leads (base : BlockId) (a : Action α) (s : Session) (post : α → Session → Prop) : Prop :=
  base ≤ s.memory.nextId → s.Changes base (a.after s) ∧ ∀ x t, a s = .ok x t → post x t

protected theorem Leads.pure {x : α} (answer : post x s) : Leads base (Pure.pure x) s post := by
  refine fun _ => ⟨.refl, ?_⟩
  rintro _ _ ⟨⟩
  exact answer

theorem Leads.fail (cause : Cause) : Leads base (Action.fail cause) s post := fun _ => ⟨.refl, nofun⟩

theorem Leads.single {a : Action α} (change : s.Change base (a.after s)) : Leads base a s fun _ _ => True :=
  fun _ => ⟨.single change, fun _ _ _ => trivial⟩

theorem Leads.plain {a : Action α} (plain : Plain a) : Leads base a s fun _ _ => True :=
  .single (.aside (plain.after_eq s).1 (plain.after_eq s).2)

/-- Where one action leads, the next one goes on. -/
protected theorem Leads.bind {mid : β → Session → Prop} {a : Action β} {f : β → Action α}
    (first : Leads base a s mid) (rest : ∀ x t, mid x t → Leads base (f x) t post) : Leads base (a >>= f) s post := by
  intro bound
  obtain ⟨changes, answers⟩ := first bound
  rw [after_bind]
  cases ran : a s with
  | ok x t =>
    rw [after_of_ok ran] at changes
    obtain ⟨more, answer⟩ := rest x t (answers x t ran) (Nat.le_trans bound changes.nextId_le)
    refine ⟨changes.trans more, fun y u done => answer y u ?_⟩
    simpa only [bind, EStateM.bind, ran] using done
  | error e t =>
    rw [after_of_error ran] at changes
    refine ⟨changes, fun y u done => ?_⟩
    simp only [bind, EStateM.bind, ran] at done
    contradiction

/-- An action may go by the session that it starts in. -/
theorem Leads.read {f : Session → Action α} (rest : Leads base (f s) s post) : Leads base (get >>= f) s post := rest

theorem Leads.discard {a : Action α} (leads : Leads base a s post) :
    Leads base (discard a : Action PUnit) s fun _ _ => True :=
  fun bound => ⟨after_discard a s ▸ (leads bound).1, fun _ _ _ => trivial⟩

/-- Actions one after the other make one change after the other. -/
protected theorem Leads.forM {list : List β} {f : β → Action PUnit}
    (each : ∀ x s, Leads base (f x) s fun _ _ => True) (s : Session) :
    Leads base (list.forM f) s fun _ _ => True := by
  induction list generalizing s with
  | nil => exact .pure trivial
  | cons x rest ih => exact (each x s).bind fun _ t _ => ih t

/-- An operation that is permitted is one change. -/
theorem Leads.attempt (operation : Operation) {f : Memory → Except MemoryError Memory}
    (does : ∀ next, f s.memory = .ok next → (s.memory.perform operation).2 = next)
    (permitted : s.Permits base operation) (unnamed : operation.declares? = none) :
    Leads base (attempt f) s fun _ _ => True := by
  refine .read ?_
  cases done : f s.memory with
  | ok next => exact .single (.perform operation permitted unnamed (does next done).symm rfl)
  | error e => exact .fail _

/-- What a pointer at hand points to may be freed. -/
theorem Leads.deallocateIfAny {target : Option BlockId} (reached : ∀ id, target = some id → s.Reaches base id) :
    Leads base (Action.attempt (·.deallocateIfAny target)) s fun _ _ => True := by
  cases target with
  | none => exact .single (.aside rfl rfl)
  | some id =>
    refine .attempt (.deallocate id) (fun next done => ?_) (reached id rfl) rfl
    simp only [Memory.deallocateIfAny] at done
    simp only [Memory.perform, Memory.settle, done]

theorem Leads.assignPointer {pointer : BlockId} {target : Option BlockId}
    (permitted : s.Permits base (.assignPointer pointer target)) :
    Leads base (Action.attempt (·.assignPointer pointer target)) s fun _ _ => True := by
  refine .attempt (.assignPointer pointer target) (fun next done => ?_) permitted rfl
  simp only [Memory.perform, Memory.settle, done]

theorem Leads.moveUnique {source dest : BlockId} :
    Leads base (Action.attempt (·.moveUnique source dest)) s fun _ _ => True := by
  refine .attempt (.moveUnique source dest) (fun next done => ?_) trivial rfl
  simp only [Memory.perform, Memory.settle, done]

theorem Leads.lookup (name : Text) : Leads base (lookup name) s fun id t =>
    t = s ∧ s.AtHand base id ∧ ∃ name, s.bindings.get? name = some id := by
  refine .read ?_
  cases known : s.named? name with
  | none => exact .fail _
  | some id =>
    dsimp only
    split
    · rename_i live
      obtain ⟨b, found, live⟩ := (Option.any_eq_true ..).mp live
      exact .pure ⟨rfl, .inr ⟨b, found, live⟩, name.toName, known⟩
    · exact .fail _

theorem Leads.arraySize (name : String) (unit count : Nat) :
    Leads base (arraySize name unit count) s fun _ t => t = s := by
  unfold Action.arraySize
  split
  · exact .pure rfl
  · exact .fail _

theorem Leads.allocate (name : String) (size : Nat) (discipline : Discipline) :
    Leads base (create (·.allocate name size discipline)) s (s.Adds base) := by
  refine fun bound => ⟨.single (.perform (.allocate name size discipline) trivial rfl rfl rfl), ?_⟩
  rintro _ _ ⟨⟩
  exact ⟨bound, fun _ there => there.push rfl⟩

theorem Leads.allocateObject (name : String) (layout : ClassLayout) (discipline : Discipline) :
    Leads base (create (·.allocateObject name layout discipline)) s (s.Adds base) := by
  refine fun bound =>
    ⟨.single (.perform (.allocateObject name layout discipline) trivial rfl rfl rfl), ?_⟩
  rintro _ _ ⟨⟩
  exact ⟨bound, fun _ there => there.push rfl⟩

theorem Leads.allocatePointee (typeText : Text) (discipline : Discipline) (owner : Text) :
    Leads base (allocatePointee typeText discipline owner) s (s.Adds base) := by
  refine .read ?_
  split
  · refine (arraySize _ _ _).bind ?_
    rintro size _ rfl
    exact allocate _ _ _
  · split
    · refine (arraySize _ _ _).bind ?_
      rintro size _ rfl
      exact allocate _ _ _
    · exact allocateObject _ _ _
  · exact .fail _

theorem Leads.bindPointer (name : Text) (discipline : Discipline) (pointee : Option ClassLayout) :
    Leads base (bindPointer name discipline pointee) s (s.Adds base) := by
  refine fun bound =>
    ⟨.single (.declare (.createPointer name.toName discipline pointee) rfl rfl rfl), ?_⟩
  rintro _ _ ⟨⟩
  exact ⟨bound, fun _ there => there.push rfl⟩

theorem Leads.bindSharedCopy (source : BlockId) (name : Text) :
    Leads base (bindSharedCopy source name) s fun _ _ => True := by
  refine .read ?_
  cases copied : s.memory.copyShared source name.toName with
  | error e => exact .fail _
  | ok made =>
    obtain ⟨b, p, _, _, number, _⟩ := Memory.copyShared_eq_ok.mp copied
    refine .single (.declare (.copyShared source name.toName) rfl ?_ ?_)
    · simp only [Memory.perform, copied, Memory.announce, number]
      rfl
    · rw [← number]
      rfl

/-- What a value is copied or moved from is at hand. -/
theorem Leads.pointerSource? (text : Text) : Leads base (pointerSource? text) s fun source t =>
    t = s ∧ ∀ id moved, source = some (id, moved) → s.AtHand base id := by
  unfold Action.pointerSource?
  dsimp only
  split
  · exact .pure ⟨rfl, nofun⟩
  · refine (lookup _).bind ?_
    rintro id _ ⟨rfl, atHand, _⟩
    refine .read (.pure ⟨rfl, fun source moved found => ?_⟩)
    split at found
    · obtain ⟨rfl, _⟩ := Prod.mk.inj (Option.some.inj found)
      exact atHand
    · cases found

/-- A pointer lets go of what it owned and is aimed at something new. -/
theorem Leads.reseat {id : BlockId} {target : Option BlockId} (atHand : s.AtHand base id)
    (fresh : ∀ new, target = some new → base ≤ new) : Leads base (reseat id target) s fun _ _ => True := by
  refine .read ((deallocateIfAny fun old owned => ?_).bind fun _ t _ => assignPointer ?_)
  · have aimed := (Option.filter_eq_some_iff.mp owned).1
    split at aimed
    · exact ⟨id, atHand, aimed⟩
    · contradiction
  · cases target with
    | none => trivial
    | some new => exact .inl (fresh new rfl)

/-- A pointer is given the target of another one. -/
theorem Leads.assignFrom (dest : BlockId) (name : Text) {source : BlockId} (moved : Bool)
    (atHand : s.AtHand base source) : Leads base (assignFrom dest name source moved) s fun _ _ => True := by
  have taken : s.Permits base (.assignPointer dest (s.target? source)) := by
    cases aimed : s.target? source with
    | none => trivial
    | some id => exact .inr (.inr ⟨source, atHand, aimed⟩)
  have cleared (t : Session) (pointer : BlockId) : t.Permits base (.assignPointer pointer none) := trivial
  unfold Action.assignFrom
  split
  · exact .pure trivial
  · refine .read ?_
    split
    · exact moveUnique
    · exact (assignPointer taken).bind fun _ _ _ => assignPointer (cleared ..)
    · exact (assignPointer (cleared ..)).bind fun _ _ _ => bindSharedCopy _ _
    · exact assignPointer taken

/-- Whatever a pointer is given is new or at hand. -/
theorem Leads.storePointer {id : BlockId} (name value : Text) (atHand : s.AtHand base id) :
    Leads base (storePointer id name value) s fun _ _ => True := by
  have allocated (typeText : Text) (discipline : Discipline) : Leads base (do
      let target ← Action.allocatePointee typeText discipline name
      Action.reseat id (some target)) s fun _ _ => True := by
    refine (allocatePointee _ _ _).bind fun target t adds => reseat (adds.atHand id atHand) ?_
    rintro _ ⟨⟩
    exact adds.fresh
  refine .read ?_
  split
  · exact reseat atHand nofun
  · split
    · exact allocated _ _
    · split
      · split
        · exact allocated _ _
        · exact .fail _
      · split
        · refine (lookup _).bind ?_
          rintro target _ ⟨rfl, _, named⟩
          exact assignPointer (.inr (.inl named))
        · refine (pointerSource? _).bind ?_
          rintro source _ ⟨rfl, sources⟩
          split
          · rename_i other moved
            exact assignFrom _ _ _ (sources _ _ rfl)
          · exact .plain (.note _)

theorem Leads.assign (target value : Text) (compound : Bool) :
    Leads base (assign target value compound) s fun _ _ => True := by
  unfold Action.assign
  split
  · split
    · exact .pure trivial
    · exact (lookup _).discard
  · split
    · exact .plain (.note _)
    · refine (lookup _).bind ?_
      rintro id _ ⟨rfl, atHand, _⟩
      refine .read ?_
      split
      · exact storePointer _ _ atHand
      · exact .pure trivial

theorem Leads.declare (d : Declarator) :
    Leads base (declare d) s fun id _ => ∀ new, id = some new → base ≤ new := by
  have bound (operation : Operation) {make : Memory → BlockId × Memory} (t : Session)
      (declares : operation.declares? = some d.name.toName) (number : (make t.memory).1 = t.memory.nextId)
      (made : t.memory.perform operation = (.created t.memory.nextId, (make t.memory).2)) :
      Leads base (do
        let id ← Action.create make
        Action.bindName d.name id
        return some id) t fun id _ => ∀ new, id = some new → base ≤ new := by
    refine fun fresh => ⟨.single (.declare operation declares made ?_), ?_⟩
    · rw [← number]
      rfl
    · rintro _ _ ⟨⟩ _ ⟨⟩
      rwa [number]
  have form := declare_form d
  generalize Action.declare d = a at form ⊢
  induction form with
  | array unit count =>
    refine (arraySize _ _ _).bind ?_
    rintro size _ rfl
    exact bound (.createVariable d.name.toName size) _ rfl rfl rfl
  | pointer pointee => exact bound (.createPointer d.name.toName .raw pointee) s rfl rfl rfl
  | object layout => exact bound (.createObject d.name.toName layout) s rfl rfl rfl
  | unknown => exact .fail _
  | unmodelled => exact (Leads.plain (.note _)).bind fun _ _ _ => .pure nofun
  | read _ _ each => exact .read (each s)

theorem Leads.declareAuto (name init : Text) : Leads base (declareAuto name init) s fun _ _ => True := by
  refine .read ?_
  split
  · exact (bindPointer _ _ _).bind fun id t adds => storePointer _ _ (.inl adds.fresh)
  · split
    · exact (bindPointer _ _ _).bind fun id t adds => storePointer _ _ (.inl adds.fresh)
    · refine (pointerSource? _).bind ?_
      rintro source _ ⟨rfl, sources⟩
      split
      · dsimp only
        split
        · exact bindSharedCopy _ _
        · exact (bindPointer _ _ _).bind fun id t adds =>
            assignFrom _ _ _ (adds.atHand _ (sources _ _ rfl))
      · exact .single (.declare (.createVariable name.toName _) rfl rfl rfl)

theorem Leads.declareOne (d : Declarator) : Leads base (declareOne d) s fun _ _ => True := by
  unfold Action.declareOne
  split
  · exact declareAuto _ _
  · refine (declare d).bind fun declared t fresh => ?_
    split
    · refine .read ?_
      split
      · exact storePointer _ _ (.inl (fresh _ rfl))
      · exact .pure trivial
    · exact .pure trivial

theorem Leads.declareSmart (name : Text) (discipline : Discipline) (pointee : Text) (init : Option Text) :
    Leads base (declareSmart name discipline pointee init) s fun _ _ => True := by
  refine .read ?_
  dsimp only
  split
  · exact (bindPointer _ _ _).discard
  · refine (pointerSource? _).bind ?_
    rintro source _ ⟨rfl, sources⟩
    split
    · refine .read ?_
      split
      · exact bindSharedCopy _ _
      · exact (bindPointer _ _ _).bind fun id t adds => assignFrom _ _ _ (adds.atHand _ (sources _ _ rfl))
    · exact (bindPointer _ _ _).bind fun id t adds => storePointer _ _ (.inl adds.fresh)

theorem Leads.assignment (line : Text) : Leads base (assignment line) s fun _ _ => True := by
  refine (Leads.plain (.declaration? _)).bind fun declared t _ => ?_
  split
  · exact .forM (fun d _ => declareOne d) t
  · exact assign _ _ _
  · exact .pure trivial

theorem Leads.declaration (line : Text) : Leads base (declaration line) s fun _ _ => True := by
  refine (Leads.plain (.declaration? _)).bind fun declared t _ => ?_
  split
  · exact .forM (fun d _ => declareOne d) t
  · exact .pure trivial

theorem Leads.smartPointer (line : Text) : Leads base (smartPointer line) s fun _ _ => True := by
  have form := smartPointer_form line
  generalize Action.smartPointer line = a at form ⊢
  cases form with
  | declare name discipline pointee init => exact declareSmart _ _ _ _
  | assign place value => exact assign _ _ _
  | plain plain => exact .plain plain

theorem Leads.delete (line : Text) : Leads base (delete line) s fun _ _ => True := by
  unfold Action.delete
  dsimp only
  split
  · exact .fail _
  · refine (lookup _).bind ?_
    rintro id _ ⟨rfl, atHand, _⟩
    refine .read ?_
    split
    · exact .fail _
    · rename_i p holds
      split
      · exact .fail _
      · rename_i target aimed
        refine (deallocateIfAny fun other reached => ?_).bind fun _ t _ => assignPointer trivial
        split at reached
        · cases reached
        · obtain rfl := Option.some.inj reached
          exact ⟨id, atHand, by rw [Session.target?, holds]; exact aimed⟩

end Action

namespace Session

variable {base : BlockId} {s t : Session}

/-- Popping a block is one change. The note that may come with it is none. -/
theorem Change.afterExit {exit : Memory.ScopeExit} (left : s.memory.endScope? = some exit) :
    s.Change base (s.afterExit exit) := by
  obtain ⟨notes, popped⟩ := s.afterExit_eq exit
  rw [popped]
  exact .perform .endScope trivial rfl (by simp only [Memory.perform, left]) rfl

theorem Change.popBlock (popped : s.popBlock = some t) : s.Change base t := by
  obtain ⟨exit, left, rfl⟩ := Option.map_eq_some_iff.mp popped
  exact .afterExit left

/-- Leaving a scope is at most one change, and notes. -/
theorem Changes.leaveScope (s : Session) : s.Changes base s.leaveScope := by
  unfold Session.leaveScope
  split
  · rename_i left
    exact .head (.afterExit left) (.single (.aside rfl rfl))
  · exact .refl

theorem Change.finish (s : Session) : s.Change base s.finish := .perform .reportLeaks trivial rfl rfl rfl

theorem Changes.popBlocks (count : Nat) (s : Session) : s.Changes base (popBlocks count s) := by
  induction count generalizing s with
  | zero => exact .refl
  | succ count ih =>
    unfold Session.popBlocks
    split
    · rename_i next popped
      exact .head (.popBlock popped) (ih next)
    · exact .refl

end Session

namespace Action

variable {base : BlockId} {s : Session}

theorem Leads.closeScope : Leads base closeScope s fun _ _ => True := by
  refine .read ?_
  split
  · exact .fail _
  · split
    · refine fun _ => ⟨(Session.Changes.leaveScope s).tail (.aside ?_ ?_), fun _ _ _ => trivial⟩
      · dsimp only [Action.after, set, EStateM.set]
        split <;> rfl
      · dsimp only [Action.after, set, EStateM.set]
        split <;> rfl
    · exact .single (.aside rfl rfl)

/-- Whatever a line is taken for, it makes changes only. -/
theorem Leads.perform (line : Text) (kind : StatementKind) :
    Leads base (perform line kind) s fun _ _ => True := by
  cases kind with
  | classHeader => exact .plain (.beginClass line)
  | classBody => exact .plain (.classBody line)
  | entryFunction => exact .plain (.enterMain line)
  | scopeReenter => exact closeScope.bind fun _ _ _ => .plain .openScope
  | scopeClose => exact closeScope
  | scopeOpen => exact .plain .openScope
  | delete => exact delete line
  | declareWithNew => exact assignment line
  | smartPointer => exact smartPointer line
  | assignment => exact assignment line
  | declaration => exact declaration line
  | returning | outsideFunction | unrecognized => exact .pure trivial

/-- Statements work on memory through its operations only, and they free or point to nothing but what a name denotes,
a live pointer reaches, or they have just created. -/
theorem Leads.statement (line : Text) : Leads base (statement line) s fun _ _ => True := by
  refine .read ?_
  split
  · exact (Leads.plain (.note _)).bind fun _ _ _ => perform line _
  · exact .plain (.crash _)

/-- Remembering the error of a line changes nothing else. -/
theorem after_executeLine (line : Text) (s : Session) :
    ((executeLine line).after s).memory = ((statement line).after s).memory ∧
      ((executeLine line).after s).bindings = ((statement line).after s).bindings := by
  unfold executeLine Action.after
  cases ran : statement line s with
  | ok _ t => simp only [ran, and_self]
  | error e t => cases e <;> simp only [ran, Session.note, and_self]

theorem Leads.executeLine (line : Text) : Leads base (executeLine line) s fun _ _ => True := by
  intro bound
  obtain ⟨memory, bindings⟩ := after_executeLine line s
  exact ⟨(statement line bound).1.tail (.aside memory bindings), fun _ _ _ => trivial⟩

theorem Leads.executeCodeLine (line : CodeLine) : Leads base (executeCodeLine line) s fun _ _ => True :=
  Leads.bind (.single (.perform .tick trivial rfl rfl rfl)) fun _ _ _ => executeLine line.code

theorem Leads.executeCodeLines (lines : List CodeLine) (s : Session) :
    Leads base (lines.forM Action.executeCodeLine) s fun _ _ => True :=
  .forM (fun line _ => executeCodeLine line) s

/-- Scripts make changes only. -/
theorem Leads.execute (script : Text) : Leads base (execute script) s fun _ _ => True :=
  (executeCodeLines _ s).bind fun _ t _ => .single (.finish t)

end Action

/-- A stepwise run makes changes only, whoever observes it. -/
theorem Session.Changes.runSteps {base : BlockId} {α : Type} (observe : Step → α → ForInStep α)
    (lines : List CodeLine) (seen : α) {s : Session} (bound : base ≤ s.memory.nextId) :
    s.Changes base (Session.runSteps observe lines seen s).session := by
  induction lines generalizing seen s with
  | nil => exact (popBlocks _ s).tail (.finish _)
  | cons line rest ih =>
    obtain ⟨ran, _⟩ := Action.Leads.executeCodeLine line bound
    unfold Session.runSteps
    split
    · exact .refl
    · split
      · rename_i result
        rw [Action.after_of_ok result] at ran
        exact ran.trans (ih _ (Nat.le_trans bound ran.nextId_le))
      · rename_i result
        rwa [Action.after_of_error result] at ran

end MemoryTrace
