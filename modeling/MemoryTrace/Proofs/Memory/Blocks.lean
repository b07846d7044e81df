import MemoryTrace.Memory.Operation

namespace MemoryTrace

/-- The pointer, unless it points to `id`: then it is null. -/
def Pointer.without (id : BlockId) (p : Pointer) : Pointer := { p with target := p.target.filter (· ≠ id) }

/-- Forgetting one target keeps every other. -/
theorem Pointer.without_target {id other : BlockId} {p : Pointer} :
    (p.without id).target = some other ↔ p.target = some other ∧ other ≠ id := by
  simp [without, Option.filter_eq_some_iff]

theorem Pointer.without_of_ne {p : Pointer} {id : BlockId} (other : p.target ≠ some id) :
    p.without id = p := by
  obtain ⟨_, target, _⟩ := p
  cases target with
  | none => rfl
  | some target => simp_all [without, Option.filter]

namespace Block

/-- Only pointers have targets. -/
theorem target?_eq_some {b : Block} {id : BlockId} :
    b.target? = some id ↔ ∃ p, b.pointer? = some p ∧ p.target = some id := by
  simp [target?, Option.bind_eq_some_iff]

@[simp] theorem aim_isStack (b : Block) (target : Option BlockId) :
    (b.aim target).isStack = b.isStack := by
  simp [isStack]

@[simp] theorem aim_managedBy (b : Block) (target : Option BlockId) :
    (b.aim target).managedBy = b.managedBy := by
  simp [managedBy]

@[simp] theorem aim_owners? (b : Block) (target : Option BlockId) :
    (b.aim target).owners? = b.owners? := by
  simp [owners?]

/-- Aiming changes the target and nothing else of a pointer. -/
@[simp] theorem aim_pointer? (b : Block) (target : Option BlockId) :
    (b.aim target).pointer? = b.pointer?.map fun p => { p with target } := by
  obtain ⟨_, _, _, _, _, content, _, _⟩ := b
  cases content <;> rfl

/-- Forgetting a block makes a pointer to it null and leaves every other alone. -/
theorem forget_pointer? (id : BlockId) (b : Block) :
    (b.forget id).pointer? = b.pointer?.map (Pointer.without id) := by
  unfold forget
  cases holds : b.pointer? with
  | none => simp [target?, holds]
  | some p =>
    obtain ⟨discipline, target, pointee⟩ := p
    cases target with
    | none => simp [target?, holds, Pointer.without]
    | some other =>
      by_cases same : other = id <;> simp [target?, holds, same, Pointer.without, Option.filter]

@[simp] theorem forget_storage (id : BlockId) (b : Block) : (b.forget id).storage = b.storage := by
  unfold forget; split <;> simp

@[simp] theorem aim_name (b : Block) (target : Option BlockId) : (b.aim target).name = b.name := by
  unfold aim; split <;> rfl

@[simp] theorem forget_name (id : BlockId) (b : Block) : (b.forget id).name = b.name := by
  unfold forget; split <;> simp

@[simp] theorem countOwners_name (f : Nat → Nat) (b : Block) : (b.countOwners f).name = b.name := by
  unfold countOwners; split <;> rfl

@[simp] theorem countOwners_content (f : Nat → Nat) (b : Block) :
    (b.countOwners f).content = b.content := by
  unfold countOwners; split <;> rfl

@[simp] theorem countOwners_isStack (f : Nat → Nat) (b : Block) :
    (b.countOwners f).isStack = b.isStack := by
  obtain ⟨_, _, _, _, storage, _, _, _⟩ := b
  cases storage <;> rfl

@[simp] theorem countOwners_managedBy (f : Nat → Nat) (b : Block) :
    (b.countOwners f).managedBy = b.managedBy := by
  obtain ⟨_, _, _, _, storage, _, _, _⟩ := b
  cases storage <;> rfl

@[simp] theorem countOwners_owners? (f : Nat → Nat) (b : Block) :
    (b.countOwners f).owners? = b.owners?.map f := by
  obtain ⟨_, _, _, _, storage, _, _, _⟩ := b
  cases storage <;> rfl

/-- Two changes of an owner count come to one. -/
@[simp] theorem countOwners_countOwners (f g : Nat → Nat) (b : Block) :
    (b.countOwners f).countOwners g = b.countOwners (g ∘ f) := by
  obtain ⟨_, _, _, _, storage, _, _, _⟩ := b
  cases storage <;> rfl

@[simp] theorem age_storage (b : Block) : b.age.storage = b.storage := by unfold age; split <;> rfl

@[simp] theorem age_name (b : Block) : b.age.name = b.name := by unfold age; split <;> rfl

@[simp] theorem age_content (b : Block) : b.age.content = b.content := by unfold age; split <;> rfl

/-- What becomes of a block when the block `id` is freed: that one dies, and a pointer to it forgets
it. -/
def bury (id : BlockId) (b : Block) : Block := (if b.id = id then b.die else b).forget id

@[simp] theorem bury_id (id : BlockId) (b : Block) : (b.bury id).id = b.id := by
  unfold bury; split <;> simp

@[simp] theorem bury_name (id : BlockId) (b : Block) : (b.bury id).name = b.name := by
  unfold bury; split <;> simp [die]

/-- Only the buried block dies. -/
@[simp] theorem bury_live (id : BlockId) (b : Block) :
    (b.bury id).live = (b.live && b.id ≠ id) := by
  unfold bury; split <;> simp_all

@[simp] theorem bury_pointer? (id : BlockId) (b : Block) :
    (b.bury id).pointer? = b.pointer?.map (Pointer.without id) := by
  have dead : b.die.pointer? = b.pointer? := by simp [pointer?, die]
  unfold bury
  split <;> simp [forget_pointer?, dead]

/-- Only the owner count of the buried block changes in storage. -/
theorem bury_storage (id : BlockId) (b : Block) :
    (b.bury id).storage = if b.id = id then (b.countOwners fun _ => 0).storage else b.storage := by
  unfold bury
  split <;> simp [die]

theorem isStack_congr {a b : Block} (same : a.storage = b.storage) : a.isStack = b.isStack := by
  simp [isStack, same]

theorem managedBy_congr {a b : Block} (same : a.storage = b.storage) :
    a.managedBy = b.managedBy := by
  simp [managedBy, same]

theorem owners?_congr {a b : Block} (same : a.storage = b.storage) : a.owners? = b.owners? := by
  simp [owners?, same]

/-- Variables count no owners. -/
theorem owners?_of_isStack {b : Block} (stack : b.isStack) : b.owners? = none := by
  obtain ⟨_, _, _, _, storage, _, _, _⟩ := b
  cases storage with
  | stack slot => rfl
  | heap | uniqueHeap | sharedHeap => contradiction

@[simp] theorem bury_isStack (id : BlockId) (b : Block) : (b.bury id).isStack = b.isStack := by
  have stored := bury_storage id b
  split at stored
  · rw [isStack_congr stored, countOwners_isStack]
  · exact isStack_congr stored

@[simp] theorem bury_managedBy (id : BlockId) (b : Block) :
    (b.bury id).managedBy = b.managedBy := by
  have stored := bury_storage id b
  split at stored
  · rw [managedBy_congr stored, countOwners_managedBy]
  · exact managedBy_congr stored

/-- The buried block has no owner left, and no other count changes. -/
theorem bury_owners? (id : BlockId) (b : Block) :
    (b.bury id).owners? = if b.id = id then b.owners?.map fun _ => 0 else b.owners? := by
  have stored := bury_storage id b
  split at stored
  · rw [owners?_congr stored, countOwners_owners?]
    simp [*]
  · rw [owners?_congr stored]
    simp [*]

theorem target?_of_pointer? {b : Block} {p : Pointer} (holds : b.pointer? = some p) :
    b.target? = p.target := by
  simp [target?, holds]

theorem target?_congr {a b : Block} (same : a.content = b.content) : a.target? = b.target? := by
  simp [target?, pointer?, same]

/-- After a burial the pointers are those that pointed elsewhere. -/
theorem target?_bury {id other : BlockId} {b : Block} :
    (b.bury id).target? = some other ↔ b.target? = some other ∧ other ≠ id := by
  cases holds : b.pointer? with
  | none => simp [target?, holds]
  | some p => simp [target?, holds, Pointer.without_target]

/-- A pointer that was aimed points to nothing but what it was aimed at. -/
theorem target?_aim {target : Option BlockId} {id : BlockId} {b : Block}
    (aimed : (b.aim target).target? = some id) : target = some id := by
  cases holds : b.pointer? with
  | none => simp [target?, holds] at aimed
  | some p => simpa [target?, holds] using aimed

end Block

namespace Memory

theorem update_blocks (m : Memory) (id : BlockId) (f : Block → Block) :
    (m.update id f).blocks = m.blocks.map fun b => if b.id = id then f b else b := rfl

theorem update_blocks_of_unknown {m : Memory} {id : BlockId} {f : Block → Block}
    (unknown : ¬ ∃ b ∈ m.blocks, b.id = id) : (m.update id f).blocks = m.blocks := by
  rw [update_blocks]
  refine (List.map_congr_left fun b member => ?_).trans (List.map_id _)
  exact if_neg fun same => unknown ⟨b, member, same⟩

@[simp] theorem record_blocks (m : Memory) (kind : EventKind) (id : BlockId) (description : String) :
    (m.record kind id description).blocks = m.blocks := rfl

@[simp] theorem record_nextId (m : Memory) (kind : EventKind) (id : BlockId) (description : String) :
    (m.record kind id description).nextId = m.nextId := rfl

/-- Freeing a block comes to burying it in every block on record. The equations of this kind say what an operation
does to the list of blocks, so that no later proof opens it again. -/
@[simp] theorem free_blocks (m : Memory) (b : Block) (reason : String) :
    (m.free b reason).blocks = m.blocks.map (Block.bury b.id) := by
  simp only [free, record_blocks, update_blocks, List.map_map]
  rfl

theorem block?_some {m : Memory} {id : BlockId} {b : Block} (found : m.block? id = some b) :
    b ∈ m.blocks ∧ b.id = id :=
  ⟨List.mem_of_find?_eq_some found, by simpa using List.find?_some found⟩

/-- Changing blocks in place commutes with looking one up. -/
theorem block?_map (m : Memory) (id : BlockId) {f : Block → Block} (keeps : ∀ b, (f b).id = b.id) :
    (m.blocks.map f).find? (·.id = id) = (m.block? id).map f := by
  have same : (fun b : Block => decide (b.id = id)) ∘ f = fun b => decide (b.id = id) :=
    funext fun b => by rw [Function.comp_apply, keeps b]
  rw [List.find?_map, same, block?]

/-- What a release can do to the blocks. Only a live block that counts owners is changed: it loses
one, and the last one takes it along. -/
inductive Released (m : Memory) (id : BlockId) (next : Memory) : Prop
  | kept (same : next = m)
      (uncounted : ∀ b, m.block? id = some b → b.live → ∀ owners, b.owners? ≠ some (owners + 1))
  | counted {b : Block} {owners : Nat} (found : m.block? id = some b) (live : b.live)
      (before : b.owners? = some (owners + 2))
      (after : next.blocks = (m.update id (Block.countOwners fun _ => owners + 1)).blocks)
  | freed {b : Block} (found : m.block? id = some b) (live : b.live) (before : b.owners? = some 1)
      (after : next.blocks = m.blocks.map (Block.bury id))

/-- What the buried block counted makes no difference. -/
theorem bury_update_countOwners (m : Memory) (id : BlockId) :
    (m.update id (Block.countOwners fun _ => 0)).blocks.map (Block.bury id) =
      m.blocks.map (Block.bury id) := by
  simp only [update_blocks, List.map_map]
  refine List.map_congr_left fun b _ => ?_
  by_cases same : b.id = id <;> simp [Block.bury, Block.die, Function.comp_def, same]

/-- A release does one of the two things that it can do. -/
theorem released (m : Memory) (id : BlockId) : m.Released id (m.release id) := by
  unfold release
  split
  · rename_i missing
    exact .kept rfl (by simp [missing])
  · rename_i b found
    split
    · rename_i owners live counted
      by_cases last : owners = 0
      · subst last
        refine .freed found live counted ?_
        rw [if_pos rfl, free_blocks, record_blocks, (block?_some found).2, bury_update_countOwners]
      · obtain ⟨more, rfl⟩ := Nat.exists_eq_succ_of_ne_zero last
        exact .counted found live counted (by simp)
    · rename_i other
      refine .kept rfl fun c same live owners counted => ?_
      obtain rfl := Option.some.inj (found.symm.trans same)
      exact other owners live counted

@[simp] theorem release_nextId (m : Memory) (id : BlockId) : (m.release id).nextId = m.nextId := by
  unfold release
  split
  · rfl
  · split
    · dsimp only
      split <;> rfl
    · rfl

/-- What runs in two parts gets through when both parts do. -/
theorem bind_eq_ok {α β : Type} {x : Except MemoryError α} {f : α → Except MemoryError β} {y : β} :
    (x >>= f) = .ok y ↔ ∃ a, x = .ok a ∧ f a = .ok y := by
  cases x <;> simp [bind, Except.bind]

/-- A block is found where one of that number is on record and live. -/
theorem liveBlock_eq_ok {m : Memory} {id : BlockId} {b : Block} :
    m.liveBlock id = .ok b ↔ m.block? id = some b ∧ b.live := by
  unfold liveBlock
  cases found : m.block? id with
  | none => simp
  | some c => by_cases live : c.live <;> simp [live] <;> grind

/-- Block `id` is live and holds the pointer `p`. -/
structure LivePointer (m : Memory) (id : BlockId) (b : Block) (p : Pointer) : Prop where
  found : m.block? id = some b
  live : b.live
  holds : b.pointer? = some p

theorem livePointer_eq_ok {m : Memory} {id : BlockId} {b : Block} {p : Pointer} :
    m.livePointer id = .ok (b, p) ↔ m.LivePointer id b p := by
  unfold livePointer
  rw [bind_eq_ok]
  constructor
  · rintro ⟨c, live, held⟩
    obtain ⟨found, live⟩ := liveBlock_eq_ok.mp live
    cases holds : c.pointer? with
    | none => simp [holds] at held
    | some q =>
      simp only [holds] at held
      obtain ⟨rfl, rfl⟩ := Prod.mk.inj (Except.ok.inj held)
      exact ⟨found, live, holds⟩
  · rintro ⟨found, live, holds⟩
    exact ⟨b, liveBlock_eq_ok.mpr ⟨found, live⟩, by simp only [holds]; rfl⟩

/-- A target is accepted if it is live or there is none. -/
theorem checkTarget_eq_ok {m : Memory} {target : Option BlockId} :
    m.checkTarget target = .ok () ↔
      ∀ id, target = some id → ∃ b, m.block? id = some b ∧ b.live := by
  cases target with
  | none => simp [checkTarget]
  | some id =>
    simp only [checkTarget, Option.some.injEq, forall_eq']
    constructor
    · intro checked
      cases live : m.liveBlock id with
      | error e => simp [live, Except.map] at checked
      | ok b => exact ⟨b, liveBlock_eq_ok.mp live⟩
    · rintro ⟨b, live⟩
      simp [liveBlock_eq_ok.mpr live, Except.map]

/-- Deallocating goes through on every live block, and what it does depends on the owners. -/
theorem deallocate_eq_ok {m next : Memory} {id : BlockId} :
    m.deallocate id = .ok next ↔ ∃ b, m.block? id = some b ∧ b.live ∧
      next = if b.owners?.any (· > 1) then m.release id else m.free b "freed" := by
  unfold deallocate
  rw [bind_eq_ok]
  simp only [liveBlock_eq_ok, pure, Except.pure, Except.ok.injEq, and_assoc, eq_comm (b := next)]

/-- An assignment goes through for a live pointer and a live target or none. -/
theorem assignPointer_eq_ok {m next : Memory} {pointer : BlockId} {target : Option BlockId} :
    m.assignPointer pointer target = .ok next ↔ ∃ b p, m.LivePointer pointer b p ∧
      (∀ id, target = some id → ∃ t, m.block? id = some t ∧ t.live) ∧
      next = if p.target = target then m else m.reaim b p target := by
  unfold assignPointer
  simp only [bind_eq_ok, Prod.exists, livePointer_eq_ok, ← checkTarget_eq_ok, pure, Except.pure,
    Except.ok.injEq]
  constructor
  · rintro ⟨b, p, pointer, ⟨⟩, checked, rfl⟩
    exact ⟨b, p, pointer, checked, rfl⟩
  · rintro ⟨b, p, pointer, checked, rfl⟩
    exact ⟨b, p, pointer, (), checked, rfl⟩

/-- A copy goes through for a live shared pointer, and takes the next number. -/
theorem copyShared_eq_ok {m next : Memory} {source id : BlockId} {name : String} :
    m.copyShared source name = .ok (id, next) ↔
      ∃ b p, m.LivePointer source b p ∧ p.discipline = .shared ∧ id = m.nextId ∧
      next = m.pushCopy b p name := by
  unfold copyShared
  rw [bind_eq_ok]
  constructor
  · rintro ⟨⟨b, p⟩, pointer, copied⟩
    by_cases shared : p.discipline = .shared
    · simp only [shared, if_true] at copied
      obtain ⟨rfl, rfl⟩ := Prod.mk.inj (Except.ok.inj copied)
      exact ⟨b, p, livePointer_eq_ok.mp pointer, shared, rfl, rfl⟩
    · simp [shared] at copied
  · rintro ⟨b, p, pointer, shared, rfl, rfl⟩
    exact ⟨(b, p), livePointer_eq_ok.mpr pointer, by simp only [shared, if_true]; rfl⟩

/-- The target of a unique pointer is asked of live unique pointers only. -/
theorem uniqueTarget_eq_ok {m : Memory} {id : BlockId} {target : Option BlockId} :
    m.uniqueTarget id = .ok target ↔
      ∃ b p, m.LivePointer id b p ∧ p.discipline = .unique ∧ p.target = target := by
  unfold uniqueTarget
  rw [bind_eq_ok]
  constructor
  · rintro ⟨⟨b, p⟩, pointer, owned⟩
    by_cases unique : p.discipline = .unique
    · simp only [unique, if_true] at owned
      exact ⟨b, p, livePointer_eq_ok.mp pointer, unique, Except.ok.inj owned⟩
    · simp [unique] at owned
  · rintro ⟨b, p, pointer, unique, rfl⟩
    exact ⟨(b, p), livePointer_eq_ok.mpr pointer, by simp only [unique, if_true]; rfl⟩

/-- A move goes through between two live unique pointers, if what the taker owned can be freed. -/
theorem moveUnique_eq_ok {m next : Memory} {source dest : BlockId} :
    m.moveUnique source dest = .ok next ↔ source ≠ dest ∧ ∃ giver p taker q freed,
      m.LivePointer source giver p ∧ p.discipline = .unique ∧
      m.LivePointer dest taker q ∧ q.discipline = .unique ∧
      m.deallocateIfAny (q.target.filter (p.target ≠ some ·)) = .ok freed ∧
      next = ((freed.update dest (·.aim p.target)).update source (·.aim none)).record .move dest
        s!"unique_ptr move {giver.name} -> {taker.name}" := by
  unfold moveUnique
  split
  · simp_all
  · rename_i different
    simp only [bind_eq_ok, liveBlock_eq_ok, uniqueTarget_eq_ok, pure, Except.pure, Except.ok.injEq]
    constructor
    · rintro ⟨giver, given, taker, taken, _, ⟨_, p, held, unique, rfl⟩, _,
        ⟨_, q, kept, owning, rfl⟩, freed, done, rfl⟩
      obtain rfl := Option.some.inj (given.1.symm.trans held.found)
      obtain rfl := Option.some.inj (taken.1.symm.trans kept.found)
      exact ⟨different, _, p, _, q, freed, held, unique, kept, owning, done, rfl⟩
    · rintro ⟨_, giver, p, taker, q, freed, held, unique, kept, owning, done, rfl⟩
      exact ⟨giver, ⟨held.found, held.live⟩, taker, ⟨kept.found, kept.live⟩, _,
        ⟨_, p, held, unique, rfl⟩, _, ⟨_, q, kept, owning, rfl⟩, freed, done, rfl⟩

/-- An operation that answers with a refusal has left the memory alone. -/
theorem settle_refused {m : Memory} {done : Except MemoryError Memory} {e : MemoryError}
    (refused : (m.settle done).1 = .refused e) : (m.settle done).2 = m := by
  cases done with
  | ok next => contradiction
  | error _ => rfl

/-- A refused operation has changed nothing. -/
theorem perform_refused {m : Memory} {operation : Operation} {e : MemoryError}
    (refused : (m.perform operation).1 = .refused e) : (m.perform operation).2 = m := by
  cases operation with
  | deallocate | assignPointer | moveUnique => exact settle_refused refused
  | copyShared source name =>
    unfold perform at refused ⊢
    dsimp only at refused ⊢
    split at refused
    · contradiction
    · rfl
  | endScope =>
    unfold perform at refused
    dsimp only at refused
    split at refused <;> contradiction
  | _ => contradiction

/-- The block that leaves a scope is the newest live block on the stack. -/
theorem endScope?_eq_some {m : Memory} {exit : ScopeExit} (left : m.endScope? = some exit) :
    ∃ b ∈ m.blocks, b.live ∧ b.isStack ∧ m.stackBlocks.getLast? = some b ∧
      exit = m.leaveScope b := by
  obtain ⟨b, last, rfl⟩ := Option.map_eq_some_iff.mp left
  have member := List.mem_of_getLast? last
  simp only [stackBlocks, liveBlocks, List.mem_filter] at member
  exact ⟨b, member.1.1, member.1.2, member.2, last, rfl⟩

/-- To keep a property, an operation that may be refused has to keep it where it goes through. -/
theorem settle_keeps (P : Memory → Prop) {m : Memory} {done : Except MemoryError Memory} (before : P m)
    (kept : ∀ next, done = .ok next → P next) : P (m.settle done).2 := by
  cases done with
  | ok next => exact kept next rfl
  | error e => exact before

/-- A copy keeps what the push of the copy keeps. -/
theorem perform_copyShared_keeps (P : Memory → Prop) {m : Memory} {source : BlockId} {name : String} (before : P m)
    (kept : ∀ b p, m.LivePointer source b p → p.discipline = .shared → P (m.pushCopy b p name)) :
    P (m.perform (.copyShared source name)).2 := by
  unfold perform
  dsimp only
  split
  · rename_i made copied
    obtain ⟨b, p, held, shared, _, copy⟩ := copyShared_eq_ok.mp copied
    exact copy ▸ kept b p held shared
  · exact before

/-- The end of a scope keeps what popping a live stack block keeps. -/
theorem perform_endScope_keeps (P : Memory → Prop) {m : Memory} (before : P m)
    (kept : ∀ b ∈ m.blocks, b.live → b.isStack → P (m.leaveScope b).memory) : P (m.perform .endScope).2 := by
  unfold perform
  dsimp only
  split
  · rename_i exit left
    obtain ⟨b, member, live, stack, _, rfl⟩ := endScope?_eq_some left
    exact kept b member live stack
  · exact before

/-- A report only adds events. -/
theorem reportLeaks_keeps {α : Type} (f : Memory → α)
    (kept : ∀ m kind id description, f (record m kind id description) = f m) (m : Memory) :
    f m.reportLeaks = f m := by
  unfold reportLeaks
  induction m.leakedBlocks generalizing m with
  | nil => rfl
  | cons b rest ih => rw [List.foldl_cons, ih, kept]

@[simp] theorem update_nextId (m : Memory) (id : BlockId) (f : Block → Block) :
    (m.update id f).nextId = m.nextId :=
  rfl

@[simp] theorem leaveTarget_nextId (m : Memory) (p : Pointer) : (m.leaveTarget p).nextId = m.nextId := by
  unfold leaveTarget
  split
  · exact m.release_nextId _
  · rfl

@[simp] theorem reaim_nextId (m : Memory) (b : Block) (p : Pointer) (target : Option BlockId) :
    (m.reaim b p target).nextId = m.nextId := by
  unfold reaim
  cases target with
  | none => simp
  | some id =>
    dsimp only
    split <;> simp [retain]

/-- Freeing gives no number back. -/
theorem deallocate_nextId {m next : Memory} {id : BlockId} (done : m.deallocate id = .ok next) :
    next.nextId = m.nextId := by
  obtain ⟨b, _, _, rfl⟩ := deallocate_eq_ok.mp done
  split
  · exact m.release_nextId id
  · rfl

theorem deallocateIfAny_nextId {m next : Memory} {target : Option BlockId}
    (done : m.deallocateIfAny target = .ok next) : next.nextId = m.nextId := by
  cases target with
  | none => rw [← Except.ok.inj done]
  | some id => exact deallocate_nextId done

/-- Leaving a scope gives no number back. -/
theorem leaveScope_nextId (m : Memory) (b : Block) : (m.leaveScope b).memory.nextId = m.nextId := by
  have popped : (m.free b "goes out of scope").nextId = m.nextId := rfl
  rw [← popped]
  unfold leaveScope
  dsimp only
  split
  · split
    · rename_i freed done
      exact (update_nextId ..).trans (deallocate_nextId done)
    · rfl
  · exact release_nextId _ _
  · rfl

/-- Numbers are given out and never taken back, but for a reset. -/
theorem nextId_le_perform (m : Memory) {operation : Operation} (goes_on : operation ≠ .reset) :
    m.nextId ≤ (m.perform operation).2.nextId := by
  have settle {done : Except MemoryError Memory} (same : ∀ next, done = .ok next → next.nextId = m.nextId) :
      m.nextId ≤ (m.settle done).2.nextId :=
    settle_keeps (m.nextId ≤ ·.nextId) (Nat.le_refl _) fun next ran => Nat.le_of_eq (same next ran).symm
  cases operation with
  | createVariable | createPointer | createObject | allocate | allocateObject => exact Nat.le_succ _
  | deallocate id => exact settle fun _ => deallocate_nextId
  | assignPointer pointer target =>
    refine settle fun next done => ?_
    obtain ⟨b, p, _, _, rfl⟩ := assignPointer_eq_ok.mp done
    split
    · rfl
    · exact reaim_nextId m b p target
  | copyShared source name =>
    refine perform_copyShared_keeps (m.nextId ≤ ·.nextId) (Nat.le_refl _) fun b p _ _ => ?_
    unfold pushCopy
    dsimp only
    split <;> exact Nat.le_succ _
  | moveUnique source dest =>
    refine settle fun next done => ?_
    obtain ⟨_, _, _, _, _, freed, _, _, _, _, released, rfl⟩ := moveUnique_eq_ok.mp done
    rw [record_nextId, update_nextId, update_nextId, deallocateIfAny_nextId released]
  | endScope =>
    exact perform_endScope_keeps (m.nextId ≤ ·.nextId) (Nat.le_refl _) fun b _ _ _ =>
      Nat.le_of_eq (leaveScope_nextId m b).symm
  | reportLeaks => exact Nat.le_of_eq (reportLeaks_keeps nextId (fun _ _ _ _ => rfl) m).symm
  | tick => exact Nat.le_refl _
  | reset => contradiction

end Memory

end MemoryTrace
