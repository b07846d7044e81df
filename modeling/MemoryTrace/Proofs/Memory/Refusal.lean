import MemoryTrace.Proofs.Memory.Registry

namespace MemoryTrace.Memory

/-- An operation as the steps it takes. What was done before a refusal stays done. -/
abbrev Procedure := EStateM MemoryError Memory

namespace Procedure

/-- Asks something of the memory, which stays as it is. -/
def ask {α : Type} (question : Memory → Except MemoryError α) : Procedure α := fun m =>
  match question m with
  | .ok answer => .ok answer m
  | .error e => .error e m

/-- Deallocates in steps: it asks for the block, and then frees it or takes an owner. -/
def deallocate (id : BlockId) : Procedure Unit := do
  let b ← ask (·.liveBlock id)
  modify fun m => if b.owners?.any (· > 1) then m.release id else m.free b "freed"

/-- Deallocates in steps, if there is a block. -/
def deallocateIfAny : Option BlockId → Procedure Unit
  | none => return
  | some id => deallocate id

/-- Assigns in steps: it asks for the pointer and the target, and then aims. -/
def assignPointer (pointer : BlockId) (target : Option BlockId) : Procedure Unit := do
  let (b, p) ← ask (·.livePointer pointer)
  ask (·.checkTarget target)
  modify fun m => if p.target = target then m else m.reaim b p target

/-- Copies in steps: it asks for the source, and then pushes the copy. -/
def copyShared (source : BlockId) (name : String) : Procedure BlockId := do
  let (b, p) ← ask (·.livePointer source)
  if p.discipline = .shared then
    modifyGet fun m => (m.nextId, m.pushCopy b p name)
  else throw (.wrongDiscipline source .shared)

/-- Moves in steps. It deallocates before it is through. -/
def moveUnique (source dest : BlockId) : Procedure Unit :=
  if source = dest then throw (.selfMove source)
  else do
    let giver ← ask (·.liveBlock source)
    let taker ← ask (·.liveBlock dest)
    let moved ← ask (·.uniqueTarget source)
    let previous ← ask (·.uniqueTarget dest)
    deallocateIfAny (previous.filter (moved ≠ some ·))
    modify (·.update dest (·.aim moved))
    modify (·.update source (·.aim none))
    modify (·.record .move dest s!"unique_ptr move {giver.name} -> {taker.name}")

/-- What cannot be refused is one step. -/
def ofOperation : Operation → Procedure Reply
  | .deallocate id => do deallocate id; return .done
  | .assignPointer pointer target => do assignPointer pointer target; return .done
  | .copyShared source name => return .created (← copyShared source name)
  | .moveUnique source dest => do moveUnique source dest; return .done
  | operation => modifyGet (·.perform operation)

end Procedure

/-- Performs an operation step by step. A refusal leaves the memory as far as it got. -/
def performInSteps (m : Memory) (operation : Operation) : Reply × Memory :=
  match Procedure.ofOperation operation m with
  | .ok reply next => (reply, next)
  | .error e next => (.refused e, next)

/-- What a procedure comes to if it either is refused before it changes anything or goes through. -/
def settled (m : Memory) : Except MemoryError Memory → EStateM.Result MemoryError Memory Unit
  | .ok next => .ok () next
  | .error e => .error e m

variable {m : Memory}

section Steps

/-- A question that comes before every change may be asked in either way. -/
theorem settled_ask {α : Type} {question : Memory → Except MemoryError α} {rest : α → Procedure Unit}
    {answered : α → Except MemoryError Memory} (same : ∀ answer, rest answer m = m.settled (answered answer)) :
    (Procedure.ask question >>= rest) m = m.settled (question m >>= answered) := by
  simp only [Procedure.ask, bind, EStateM.bind, Except.bind]
  cases question m with
  | ok answer => exact same answer
  | error e => rfl

theorem settled_deallocate (id : BlockId) : Procedure.deallocate id m = m.settled (m.deallocate id) :=
  settled_ask fun _ => rfl

theorem settled_deallocateIfAny (target : Option BlockId) :
    Procedure.deallocateIfAny target m = m.settled (m.deallocateIfAny target) := by
  cases target with
  | none => rfl
  | some id => exact settled_deallocate id

/-- An assignment in steps is refused before it changes anything or goes through. -/
theorem settled_assignPointer (pointer : BlockId) (target : Option BlockId) :
    Procedure.assignPointer pointer target m = m.settled (m.assignPointer pointer target) :=
  settled_ask fun _ => settled_ask fun _ => rfl

/-- The deallocation comes before the other changes, and after it nothing is asked. -/
theorem settled_moveUnique (source dest : BlockId) :
    Procedure.moveUnique source dest m = m.settled (m.moveUnique source dest) := by
  unfold Procedure.moveUnique Memory.moveUnique
  split
  · rfl
  · refine settled_ask fun giver => settled_ask fun taker => settled_ask fun moved => settled_ask fun previous => ?_
    simp only [bind, EStateM.bind, Except.bind, settled_deallocateIfAny]
    cases m.deallocateIfAny (previous.filter (moved ≠ some ·)) <;> rfl

/-- An operation does one thing after the other, and still no refusal comes too late. -/
theorem performInSteps_eq (operation : Operation) : m.performInSteps operation = m.perform operation := by
  have unit {procedure : Procedure Unit} {done : Except MemoryError Memory} (same : procedure m = m.settled done) :
      (match (do procedure; return .done : Procedure Reply) m with
        | .ok reply next => (reply, next)
        | .error e next => (.refused e, next)) = m.settle done := by
    simp only [bind, EStateM.bind, same]
    cases done <;> rfl
  cases operation with
  | deallocate id => exact unit (settled_deallocate id)
  | assignPointer pointer target => exact unit (settled_assignPointer pointer target)
  | moveUnique source dest => exact unit (settled_moveUnique source dest)
  | copyShared source name =>
    unfold performInSteps perform Procedure.ofOperation Procedure.copyShared Memory.copyShared
    simp only [Procedure.ask, bind, EStateM.bind, Except.bind]
    cases m.livePointer source with
    | error e => rfl
    | ok held =>
      by_cases shared : held.2.discipline = .shared
      · simp only [shared, if_true]
        rfl
      · simp only [shared, if_false]
        rfl
  | _ => rfl

end Steps

/-- A live pointer of discipline `d`. -/
def HasPointer (m : Memory) (d : Discipline) (id : BlockId) : Prop :=
  ∃ b p, m.LivePointer id b p ∧ p.discipline = d

/-- The operation would be refused. -/
def Refuses (m : Memory) (operation : Operation) : Prop := ∃ e, (m.perform operation).1 = .refused e

/-- An operation is refused where it does not go through. -/
theorem refuses_iff {operation : Operation} {done : Except MemoryError Memory}
    (settles : m.perform operation = m.settle done) : m.Refuses operation ↔ ¬ ∃ next, done = .ok next := by
  unfold Refuses
  rw [settles]
  cases done <;> simp [settle]

theorem refuses_copyShared {source : BlockId} {name : String} :
    m.Refuses (.copyShared source name) ↔ ¬ m.HasPointer .shared source := by
  have accepted : m.HasPointer .shared source ↔ ∃ made, m.copyShared source name = .ok made := by
    simp only [Prod.exists, copyShared_eq_ok]
    constructor
    · rintro ⟨b, p, held, shared⟩
      exact ⟨_, _, b, p, held, shared, rfl, rfl⟩
    · rintro ⟨_, _, b, p, held, shared, _⟩
      exact ⟨b, p, held, shared⟩
  rw [accepted, Refuses, perform]
  cases m.copyShared source name <;> simp [announce]

namespace Sound

variable (sound : m.Sound)

include sound

theorem hasLive_iff {id : BlockId} : m.HasLive id ↔ ∃ b, m.block? id = some b ∧ b.live := by
  simp only [HasLive, sound.block?_eq_some, and_assoc]

theorem deallocate_accepted {id : BlockId} : (∃ next, m.deallocate id = .ok next) ↔ m.HasLive id := by
  simp only [deallocate_eq_ok, sound.hasLive_iff]
  constructor
  · rintro ⟨_, b, found, live, _⟩
    exact ⟨b, found, live⟩
  · rintro ⟨b, found, live⟩
    exact ⟨_, b, found, live, rfl⟩

/-- An assignment needs a live pointer and a live target or none. -/
theorem assignPointer_accepted {pointer : BlockId} {target : Option BlockId} :
    (∃ next, m.assignPointer pointer target = .ok next) ↔
      (∃ b p, m.LivePointer pointer b p) ∧ ∀ id, target = some id → m.HasLive id := by
  simp only [assignPointer_eq_ok, sound.hasLive_iff]
  constructor
  · rintro ⟨_, b, p, held, live, _⟩
    exact ⟨⟨b, p, held⟩, live⟩
  · rintro ⟨⟨b, p, held⟩, live⟩
    exact ⟨_, b, p, held, live, rfl⟩

/-- What a pointer points to is live, so it can be deallocated. -/
theorem deallocateIfAny_accepted {pointer : BlockId} {b : Block} {p : Pointer} (held : m.LivePointer pointer b p)
    (spared : BlockId → Bool) : ∃ freed, m.deallocateIfAny (p.target.filter spared) = .ok freed := by
  cases target : p.target.filter spared with
  | none => exact ⟨m, rfl⟩
  | some old =>
    have aimed := (Option.filter_eq_some_iff.mp target).1
    have live := sound.targetsLive b (block?_some held.found).1 old (Block.target?_eq_some.mpr ⟨p, held.holds, aimed⟩)
    exact sound.deallocate_accepted.mpr live

/-- A move needs two live unique pointers that are not the same. -/
theorem moveUnique_accepted {source dest : BlockId} :
    (∃ next, m.moveUnique source dest = .ok next) ↔
      source ≠ dest ∧ m.HasPointer .unique source ∧ m.HasPointer .unique dest := by
  simp only [moveUnique_eq_ok]
  constructor
  · rintro ⟨_, different, giver, p, taker, q, _, given, owner, taken, owning, _⟩
    exact ⟨different, ⟨giver, p, given, owner⟩, taker, q, taken, owning⟩
  · rintro ⟨different, ⟨giver, p, given, owner⟩, taker, q, taken, owning⟩
    obtain ⟨freed, released⟩ := sound.deallocateIfAny_accepted taken (p.target ≠ some ·)
    exact ⟨_, different, giver, p, taker, q, freed, given, owner, taken, owning, released, rfl⟩

end Sound

/-- Four operations may be refused, each exactly when it lacks a block that it needs. The deallocation inside a move
is never what is refused. A refused operation has changed nothing, and that is so although it is done in steps
which a refusal does not undo. -/
theorem refusals_exact (reach : m.Reachable) :
    (∀ operation, m.performInSteps operation = m.perform operation ∧
      (m.Refuses operation → (m.perform operation).2 = m)) ∧
    (∀ id, m.Refuses (.deallocate id) ↔ ¬ m.HasLive id) ∧
    (∀ pointer target, m.Refuses (.assignPointer pointer target) ↔
      (¬ ∃ b p, m.LivePointer pointer b p) ∨ ∃ id, target = some id ∧ ¬ m.HasLive id) ∧
    (∀ source name, m.Refuses (.copyShared source name) ↔ ¬ m.HasPointer .shared source) ∧
    (∀ source dest, m.Refuses (.moveUnique source dest) ↔
      source = dest ∨ ¬ m.HasPointer .unique source ∨ ¬ m.HasPointer .unique dest) ∧
    (∀ source giver p dest taker q, m.LivePointer source giver p → m.LivePointer dest taker q →
      ∃ freed, m.deallocateIfAny (q.target.filter (p.target ≠ some ·)) = .ok freed) := by
  have sound := reach.sound
  refine ⟨fun operation => ⟨performInSteps_eq operation, ?_⟩, fun id => ?_, fun pointer target => ?_,
    fun source name => refuses_copyShared, fun source dest => ?_, ?_⟩
  · rintro ⟨e, refused⟩
    exact perform_refused refused
  · rw [refuses_iff rfl, sound.deallocate_accepted]
  · rw [refuses_iff rfl, sound.assignPointer_accepted, not_and_or]
    simp only [not_forall, exists_prop]
  · rw [refuses_iff rfl, sound.moveUnique_accepted, not_and_or, not_and_or, not_not]
  · intro source giver p dest taker q _ taken
    exact sound.deallocateIfAny_accepted taken _

/-- A unique pointer that owns block 3 takes over from another one. A move into itself, a second deallocation and a
pointer to a freed block are refused. -/
theorem refusals_exact_of_move :
    ∃ m : Memory, m.Reachable ∧ ¬ m.Refuses (.moveUnique 1 2) ∧ m.Refuses (.moveUnique 2 2) ∧
      (m.perform (.moveUnique 2 2)).2 = m ∧ m.Refuses (.deallocate 4) ∧
      m.Refuses (.assignPointer 1 (some 4)) ∧ m.Refuses (.copyShared 1 "copy") := by
  let m := (withCapacity 8).run [.createPointer "p" .unique none, .createPointer "q" .unique none,
    .allocate "*q" 4 .unique, .allocate "r" 4 .raw, .assignPointer 2 (some 3), .deallocate 4]
  have reach : m.Reachable := Reachable.run (.fresh 8) _
  obtain ⟨steps, deallocate, assign, copy, move, _⟩ := refusals_exact reach
  have unique (id : BlockId) (known : (m.block? id).any fun b => b.live && (b.pointer?.any (·.discipline = .unique))) :
      m.HasPointer .unique id := by
    obtain ⟨b, found, live⟩ := (Option.any_eq_true ..).mp known
    obtain ⟨alive, holds⟩ := (Bool.and_eq_true ..).mp live
    obtain ⟨p, holds, kind⟩ := (Option.any_eq_true ..).mp holds
    exact ⟨b, p, ⟨found, alive, holds⟩, of_decide_eq_true kind⟩
  have gone : ¬ m.HasLive 4 := by
    rintro ⟨b, member, same, live⟩
    revert b
    decide
  have itself := (move 2 2).mpr (.inl rfl)
  refine ⟨m, reach, fun refused => ?_, itself, (steps _).2 itself, (deallocate 4).mpr gone,
    (assign 1 (some 4)).mpr (.inr ⟨4, rfl, gone⟩), (copy 1 "copy").mpr ?_⟩
  · rcases (move 1 2).mp refused with same | none_held | none_taken
    · contradiction
    · exact none_held (unique 1 (by decide))
    · exact none_taken (unique 2 (by decide))
  · rintro ⟨b, p, held, shared⟩
    obtain ⟨c, q, other, kind⟩ := unique 1 (by decide)
    obtain rfl := Option.some.inj (held.found.symm.trans other.found)
    obtain rfl := Option.some.inj (held.holds.symm.trans other.holds)
    rw [shared] at kind
    contradiction

end MemoryTrace.Memory
