import MemoryTrace.Session.Execution

namespace MemoryTrace

open Script

/-- The session with another log, at another line, after other notes and another error. -/
def Session.told (s : Session) (log : EventLog) (line : Nat) (lastError : Option ScriptError) (notes : List Note) :
    Session :=
  { s with memory := { s.memory with events := log }, line, lastError, notes }

namespace Action

variable {α β : Type}

/-- The session an action leaves behind, whether it succeeds or not. -/
def after (a : Action α) (s : Session) : Session :=
  match a s with
  | .ok _ next => next
  | .error _ next => next

/-- What two actions leave behind is what the second leaves, unless the first fails. -/
theorem after_bind (a : Action α) (f : α → Action β) (s : Session) :
    (a >>= f).after s = match a s with
      | .ok x next => (f x).after next
      | .error _ next => next := by
  simp only [after, bind, EStateM.bind]
  cases a s <;> rfl

/-- An action that succeeds leaves the session of its result. -/
theorem after_of_ok {a : Action α} {s t : Session} {x : α} (ran : a s = .ok x t) : a.after s = t := by
  rw [after, ran]

theorem eq_ok_of_run' {a : Action α} {s : Session} {x : α} (answers : a.run' s = some x) : a s = .ok x (a.after s) := by
  delta EStateM.run' EStateM.run at answers
  unfold after
  cases ran : a s with
  | ok y t =>
    rw [ran] at answers
    rw [← Option.some.inj answers]
  | error e t =>
    rw [ran] at answers
    contradiction

/-- One that fails leaves the session that it fails in. -/
theorem after_of_error {a : Action α} {s t : Session} {e : Failure} (ran : a s = .error e t) : a.after s = t := by
  rw [after, ran]

/-- The failure that an action ends with. -/
def failure? (a : Action α) (s : Session) : Option Failure :=
  match a s with
  | .ok _ _ => none
  | .error e _ => some e

theorem eq_error_of_failure? {a : Action α} {s : Session} {e : Failure} (fails : a.failure? s = some e) :
    a s = .error e (a.after s) := by
  unfold failure? at fails
  unfold after
  cases ran : a s with
  | ok x t =>
    rw [ran] at fails
    contradiction
  | error cause t =>
    rw [ran] at fails
    rw [← Option.some.inj fails]

theorem after_discard (a : Action α) (s : Session) : (discard a : Action PUnit).after s = a.after s := by
  simp only [after, Functor.discard, Functor.mapConst, EStateM.map, Function.comp_def]
  cases a s <;> rfl

theorem discard_of_ok {a : Action α} {s t : Session} {x : α} (ran : a s = .ok x t) :
    (discard a : Action PUnit) s = .ok ⟨⟩ t := by
  simp only [Functor.discard, Functor.mapConst, EStateM.map, Function.comp_def, ran]

/-- An action that only asks the session. What it does depends neither on the log nor on the line, and it fails neither
for memory nor for the end of a scope. It may crash if `crashes` holds. -/
inductive Asks (crashes : Prop) : {α : Type} → Action α → Prop
  | protected pure {α : Type} (x : α) : Asks crashes (Pure.pure x)
  | fail {α : Type} {cause : Cause} (accepted : ∀ e, cause ≠ .rejected e) (other : cause ≠ .unexpectedScopeEnd) :
      Asks crashes (Action.fail cause : Action α)
  | crash {α : Type} (may : crashes) (c : Crash) : Asks crashes (throw (.crash c) : Action α)
  | read {α : Type} {f : Session → Action α}
      (told : ∀ s log line lastError notes, f (s.told log line lastError notes) = f s) (each : ∀ s, Asks crashes (f s)) :
      Asks crashes (get >>= f)
  | protected bind {α β : Type} {a : Action α} {f : α → Action β} (first : Asks crashes a)
      (rest : ∀ x, Asks crashes (f x)) : Asks crashes (a >>= f)

namespace Asks

variable {crashes : Prop}

protected theorem mapM {list : List α} {f : α → Action β} (each : ∀ x, Asks crashes (f x)) :
    Asks crashes (list.mapM f) := by
  induction list with
  | nil => exact .pure _
  | cons x rest ih =>
    rw [List.mapM_cons]
    exact (each x).bind fun _ => ih.bind fun _ => .pure _

theorem lookup (name : Text) : Asks crashes (lookup name) := by
  refine .read (fun _ _ _ _ _ => rfl) fun s => ?_
  split
  · exact .fail nofun nofun
  · split
    · exact .pure _
    · exact .fail nofun nofun

theorem arraySize (name : String) (unit count : Nat) : Asks crashes (arraySize name unit count) := by
  unfold Action.arraySize
  split
  · exact .pure _
  · exact .fail nofun nofun

theorem declaration? {text : Text} (reads : crashes ∨ ∀ c, readDeclaration text ≠ .error (.crash c)) :
    Asks crashes (declaration? text) := by
  unfold Action.declaration?
  split
  · exact .pure _
  · exact .pure _
  · rename_i c failed
    exact .crash (reads.resolve_right fun whole => whole c failed) c

theorem pointerSource? (text : Text) : Asks crashes (pointerSource? text) := by
  unfold Action.pointerSource?
  dsimp only
  split
  · exact .pure _
  · exact (lookup _).bind fun id => .read (fun _ _ _ _ _ => rfl) fun s => .pure _

/-- Finding out what a declarator adds to a class is asking. -/
theorem memberOf (className : String) (d : Declarator) : Asks crashes (memberOf className d) := by
  have sized (typeName : String) (unit : Nat) : Asks crashes (do
      let size ← Action.arraySize d.name.toName unit (d.arrayLength.getD 1)
      return ({ name := d.name.toName, typeName, size } : Member)) :=
    (arraySize _ _ _).bind fun _ => .pure _
  unfold Action.memberOf
  dsimp only
  split
  · exact (Asks.pure _).bind (sized _)
  · split
    · exact (Asks.pure _).bind (sized _)
    · split
      · exact .bind (.fail nofun nofun) (sized _)
      · refine .read (fun _ _ _ _ _ => rfl) fun s => ?_
        split
        · exact (Asks.pure _).bind (sized _)
        · exact .bind (.fail nofun nofun) (sized _)

theorem membersOf (className : String) {text : Text}
    (reads : crashes ∨ ∀ c, readDeclaration text ≠ .error (.crash c)) : Asks crashes (membersOf className text) := by
  unfold Action.membersOf
  split
  · exact .pure _
  · refine (declaration? reads).bind fun declared => ?_
    split
    · exact .mapM (memberOf className)
    · exact .pure _

end Asks

/-- An action that asks nothing of memory and gives no name a new meaning. What it does depends neither on the log
nor on the line, and memory never is why it fails. -/
inductive Plain : {α : Type} → Action α → Prop
  | protected pure {α : Type} (x : α) : Plain (Pure.pure x)
  | fail {α : Type} {cause : Cause} (accepted : ∀ e, cause ≠ .rejected e) : Plain (Action.fail cause : Action α)
  | crash {α : Type} (c : Crash) : Plain (throw (.crash c) : Action α)
  | note (remark : Remark) : Plain (note remark)
  | protected modify {f : Session → Session} (memory : ∀ s, (f s).memory = s.memory)
      (bindings : ∀ s, (f s).bindings = s.bindings)
      (told : ∀ s log line lastError notes, f (s.told log line lastError notes) = (f s).told log line lastError notes) :
      Plain (modify f)
  | read {α : Type} {f : Session → Action α}
      (told : ∀ s log line lastError notes, f (s.told log line lastError notes) = f s) (each : ∀ s, Plain (f s)) :
      Plain (get >>= f)
  | protected bind {α β : Type} {a : Action α} {f : α → Action β} (first : Plain a) (rest : ∀ x, Plain (f x)) :
      Plain (a >>= f)

namespace Plain

/-- A plain action leaves memory and names alone. -/
theorem after_eq {a : Action α} (plain : Plain a) (s : Session) :
    (a.after s).memory = s.memory ∧ (a.after s).bindings = s.bindings := by
  induction plain generalizing s with
  | pure | fail | crash | note => exact ⟨rfl, rfl⟩
  | modify memory bindings => exact ⟨memory s, bindings s⟩
  | read _ _ ih => exact ih s s
  | @bind _ _ a _ _ _ first rest =>
    obtain ⟨memory, bindings⟩ := first s
    rw [after_bind]
    cases ran : a s with
    | ok x t =>
      obtain rfl := after_of_ok ran
      exact ⟨(rest x _).1.trans memory, (rest x _).2.trans bindings⟩
    | error e t =>
      obtain rfl := after_of_error ran
      exact ⟨memory, bindings⟩

protected theorem forM {list : List α} {f : α → Action PUnit} (each : ∀ x, Plain (f x)) : Plain (list.forM f) := by
  induction list with
  | nil => exact .pure _
  | cons x rest ih => exact (each x).bind fun _ => ih

end Plain

theorem Asks.plain {crashes : Prop} {a : Action α} (asks : Asks crashes a) : Plain a := by
  induction asks with
  | pure x => exact .pure x
  | fail accepted => exact .fail accepted
  | crash _ c => exact .crash c
  | read told _ ih => exact .read told ih
  | bind _ _ first rest => exact first.bind rest

namespace Plain

theorem lookup (name : Text) : Plain (lookup name) := (Asks.lookup name : Asks True _).plain

theorem arraySize (name : String) (unit count : Nat) : Plain (arraySize name unit count) :=
  (Asks.arraySize name unit count : Asks True _).plain

theorem pointerSource? (text : Text) : Plain (pointerSource? text) := (Asks.pointerSource? text : Asks True _).plain

theorem declaration? (text : Text) : Plain (declaration? text) :=
  (Asks.declaration? (.inl trivial) : Asks True _).plain

theorem membersOf (className : String) (text : Text) : Plain (membersOf className text) :=
  (Asks.membersOf className (.inl trivial) : Asks True _).plain

theorem addMembers (className : String) (statement : Text) : Plain (addMembers className statement) := by
  refine (membersOf _ _).bind fun members => .read (fun _ _ _ _ _ => rfl) fun s => ?_
  dsimp only
  split
  · exact .modify (fun _ => rfl) (fun _ => rfl) fun _ _ _ _ _ => rfl
  · exact .fail nofun

theorem beginClass (line : Text) : Plain (beginClass line) := by
  unfold Action.beginClass
  dsimp only
  split
  · exact .fail nofun
  · refine .read (fun _ _ _ _ _ => rfl) fun s => ?_
    split
    · exact .fail nofun
    · refine .bind (.modify (fun _ => rfl) (fun _ => rfl) fun _ _ _ _ _ => rfl) fun _ =>
        (Plain.note _).bind fun _ => ?_
      split
      · exact .forM fun _ => addMembers _ _
      · exact .modify (fun _ => rfl) (fun _ => rfl) fun _ _ _ _ _ => rfl

theorem noteSpecialMember (className : String) (line : Text) : Plain (noteSpecialMember className line) :=
  .modify (fun _ => rfl) (fun _ => rfl) fun _ _ _ _ _ => rfl

/-- The end of a class asks for the class's size only to remark on it. -/
theorem closeClass (name : String) : Plain (modify (·.closeClass name)) := by
  have asks : (modify (·.closeClass name) : Action Unit) = get >>= fun s =>
      (modify fun s => { s with openClass := none }) >>= fun _ =>
        (s.classes.get? name).elim (Pure.pure ()) fun layout => Action.note (.classClosed name layout.size) := by
    funext s
    change EStateM.Result.ok () (s.closeClass name) =
      (s.classes.get? name).elim (Pure.pure ()) (fun layout => Action.note (.classClosed name layout.size))
        { s with openClass := none }
    unfold Session.closeClass
    cases s.classes.get? name <;> rfl
  rw [asks]
  refine .read (fun _ _ _ _ _ => rfl) fun s => ?_
  refine .bind (.modify (fun _ => rfl) (fun _ => rfl) fun _ _ _ _ _ => rfl) fun _ => ?_
  cases s.classes.get? name with
  | none => exact .pure _
  | some layout => exact .note _

theorem classBody (line : Text) : Plain (classBody line) := by
  have become (o : OpenClass) : Plain (modify fun s => { s with openClass := some o }) :=
    .modify (fun _ => rfl) (fun _ => rfl) fun _ _ _ _ _ => rfl
  refine .read (fun _ _ _ _ _ => rfl) fun s => ?_
  split
  · exact .pure _
  · dsimp only
    split
    · exact become _
    · split
      · exact become _
      · split
        · exact become _
        · split
          · exact closeClass _
          · split
            · exact (become _).bind fun _ => noteSpecialMember _ _
            · exact (become _).bind fun _ => addMembers _ _

theorem enterMain (line : Text) : Plain (enterMain line) := by
  unfold Action.enterMain
  split
  · exact .note _
  · exact .bind (.modify (fun _ => rfl) (fun _ => rfl) fun _ _ _ _ _ => rfl) fun _ => .note _

theorem openScope : Plain openScope := .modify (fun _ => rfl) (fun _ => rfl) fun _ _ _ _ _ => rfl

end Plain

end Action

end MemoryTrace
