import MemoryTrace.Proofs.Memory.Reseat
import MemoryTrace.Session.Execution

namespace MemoryTrace.Action

open Script

variable {α β : Type} {s t : Session}

theorem bind_eq_ok {a : Action α} {f : α → Action β} {y : β} :
    (a >>= f) s = .ok y t ↔ ∃ x u, a s = .ok x u ∧ f x u = .ok y t := by
  simp only [bind, EStateM.bind]
  cases a s <;> simp

/-- What follows an action that succeeds goes on from there. -/
theorem bind_of_ok {a : Action α} {x : α} (ran : a s = .ok x t) (f : α → Action β) : (a >>= f) s = f x t := by
  simp only [bind, EStateM.bind, ran]

theorem fail_ne_ok {cause : Cause} {x : α} : (fail cause : Action α) s ≠ .ok x t := nofun

theorem pure_eq_ok {x y : α} : (pure x : Action α) s = .ok y t ↔ y = x ∧ t = s := by
  constructor
  · rintro ⟨⟩
    exact ⟨rfl, rfl⟩
  · rintro ⟨rfl, rfl⟩
    rfl

theorem discard_eq_ok {a : Action α} {y : PUnit} (done : (discard a : Action PUnit) s = .ok y t) :
    ∃ x, a s = .ok x t := by
  simp only [Functor.discard, Functor.mapConst, EStateM.map, Function.comp_def] at done
  cases ran : a s with
  | ok x u =>
    rw [ran] at done
    cases done
    exact ⟨x, rfl⟩
  | error e u =>
    rw [ran] at done
    contradiction

/-- Reading the session changes nothing. -/
theorem get_bind (f : Session → Action α) (s : Session) : (get >>= f) s = f s s := rfl

theorem modify_bind (change : Session → Session) (f : Unit → Action α) (s : Session) :
    (modify change >>= f) s = f () (change s) := rfl

/-- A successful attempt leaves the memory that the operation makes. -/
theorem attempt_eq_ok {operation : Memory → Except MemoryError Memory} :
    attempt operation s = .ok () t ↔
      ∃ next, operation s.memory = .ok next ∧ t = { s with memory := next } := by
  unfold attempt
  rw [get_bind]
  cases operation s.memory with
  | ok next =>
    constructor
    · rintro ⟨⟩
      exact ⟨next, rfl, rfl⟩
    · rintro ⟨_, ⟨⟩, rfl⟩
      rfl
  | error e => exact ⟨nofun, nofun⟩

/-- A successful lookup changes nothing and finds what the name denotes. -/
theorem lookup_eq_ok {name : Text} {id : BlockId} (found : lookup name s = .ok id t) :
    t = s ∧ s.named? name = some id := by
  unfold lookup at found
  rw [get_bind] at found
  cases known : s.named? name with
  | none =>
    rw [known] at found
    contradiction
  | some other =>
    rw [known] at found
    dsimp only at found
    split at found
    · obtain ⟨rfl, rfl⟩ := pure_eq_ok.mp found
      exact ⟨rfl, rfl⟩
    · contradiction

theorem bindSharedCopy_eq_ok {source : BlockId} {name : Text}
    (done : bindSharedCopy source name s = .ok () t) :
    ∃ id next, s.memory.copyShared source name.toName = .ok (id, next) ∧
      t = { s with memory := next, bindings := s.bindings.set name.toName id } := by
  unfold bindSharedCopy at done
  rw [get_bind] at done
  cases copied : s.memory.copyShared source name.toName with
  | ok made =>
    rw [copied] at done
    cases done
    exact ⟨made.1, made.2, rfl, rfl⟩
  | error e =>
    rw [copied] at done
    contradiction

theorem arraySize_eq_ok {name : String} {unit count size : Nat}
    (fits : arraySize name unit count s = .ok size t) : t = s := by
  unfold arraySize at fits
  split at fits
  · exact (pure_eq_ok.mp fits).2
  · contradiction

/-- The session has a new heap block of this discipline, and is the same otherwise. -/
def Allocates (s t : Session) (d : Discipline) (id : BlockId) : Prop :=
  ∃ b, s.memory.Pushes t.memory b ∧ b.isHeapOf d ∧ b.id = id ∧ t = { s with memory := t.memory }

/-- However its size is found, a pointee is a new heap block of its discipline. -/
theorem allocatePointee_eq_ok {typeText owner : Text} {discipline : Discipline} {id : BlockId}
    (made : allocatePointee typeText discipline owner s = .ok id t) :
    Allocates s t discipline id := by
  have plain {size : Nat}
      (created : create (·.allocate ("*" ++ owner.toName) size discipline) s = .ok id t) :
      Allocates s t discipline id := by
    cases created
    obtain ⟨b, pushed, heap⟩ := s.memory.allocate_pushes ("*" ++ owner.toName) size discipline
    exact ⟨b, pushed, heap, pushed.id, rfl⟩
  have array {unit count : Nat} (created : (do
      let size ← arraySize ("*" ++ owner.toName) unit count
      create (·.allocate ("*" ++ owner.toName) size discipline) : Action BlockId) s = .ok id t) :
      Allocates s t discipline id := by
    obtain ⟨size, u, fits, later⟩ := bind_eq_ok.mp created
    rw [arraySize_eq_ok fits] at later
    exact plain later
  unfold allocatePointee at made
  rw [get_bind] at made
  cases primitive : primitiveSize? (baseType typeText) with
  | some unit =>
    rw [primitive] at made
    exact array made
  | none =>
    cases known : s.class? (baseType typeText) with
    | none =>
      rw [primitive, known] at made
      contradiction
    | some layout =>
      cases counted : elementCount? typeText with
      | some count =>
        rw [primitive, known, counted] at made
        exact array made
      | none =>
        rw [primitive, known, counted] at made
        cases made
        obtain ⟨b, pushed, heap⟩ :=
          s.memory.allocateObject_pushes ("*" ++ owner.toName) layout discipline
        exact ⟨b, pushed, heap, pushed.id, rfl⟩

/-- What was owned alone is freed first, unless it is what the pointer is aimed at. -/
theorem reseat_eq_ok {id : BlockId} {target : Option BlockId} (done : reseat id target s = .ok () t) :
    ∃ freed next, s.memory.deallocateIfAny ((if s.discipline? id = some .unique then s.target? id
        else none).filter (some · ≠ target)) = .ok freed ∧
      freed.assignPointer id target = .ok next ∧ t = { s with memory := next } := by
  unfold reseat at done
  rw [get_bind] at done
  obtain ⟨_, u, first, second⟩ := bind_eq_ok.mp done
  obtain ⟨freed, released, rfl⟩ := attempt_eq_ok.mp first
  obtain ⟨next, aimed, rfl⟩ := attempt_eq_ok.mp second
  exact ⟨freed, next, released, aimed, rfl⟩

theorem executeLine_eq_ok {line : Text} (ran : executeLine line s = .ok () t) : statement line s = .ok () t := by
  unfold executeLine at ran
  split at ran
  · contradiction
  · exact ran

/-- A line that runs is taken for something first, which is noted. -/
theorem executeCodeLine_eq_ok {line : CodeLine} (ran : executeCodeLine line s = .ok () t) :
    statement line.code { s with line := line.number, memory := s.memory.tick } = .ok () t := by
  unfold executeCodeLine at ran
  obtain ⟨_, _, ⟨⟩, ran⟩ := bind_eq_ok.mp ran
  exact executeLine_eq_ok ran

/-- A statement that succeeds does what it was taken for. -/
theorem perform_of_statement {line : Text} {kind : StatementKind}
    (taken : s.classify line = .ok kind) (ran : statement line s = .ok () t) :
    perform line kind (s.note (.running kind line.toName)) = .ok () t := by
  unfold statement at ran
  rw [get_bind, taken] at ran
  exact ran

end MemoryTrace.Action
