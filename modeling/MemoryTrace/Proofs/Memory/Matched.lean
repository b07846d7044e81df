import MemoryTrace.Proofs.Memory.Aiming

namespace MemoryTrace

namespace Block

/-- Whether this is a heap block that pointers of discipline `d` are for. -/
def isHeapOf (d : Discipline) (b : Block) : Bool := !b.isStack && b.managedBy = d

@[simp] theorem isHeapOf_aim (d : Discipline) (b : Block) (target : Option BlockId) :
    (b.aim target).isHeapOf d = b.isHeapOf d := by simp [isHeapOf]

@[simp] theorem isHeapOf_countOwners (d : Discipline) (b : Block) (f : Nat → Nat) :
    (b.countOwners f).isHeapOf d = b.isHeapOf d := by simp [isHeapOf]

@[simp] theorem isHeapOf_bury (d : Discipline) (b : Block) (id : BlockId) :
    (b.bury id).isHeapOf d = b.isHeapOf d := by simp [isHeapOf]

theorem isHeapOf_congr {a b : Block} (same : a.storage = b.storage) (d : Discipline) :
    a.isHeapOf d = b.isHeapOf d := by
  simp [isHeapOf, isStack_congr same, managedBy_congr same]

theorem isHeapOf_raw {b : Block} : b.isHeapOf .raw ↔ b.storage = .heap := by
  obtain ⟨_, _, _, _, storage, _, _, _⟩ := b
  cases storage <;> simp [isHeapOf, isStack, managedBy]

theorem isHeapOf_unique {b : Block} : b.isHeapOf .unique ↔ b.storage = .uniqueHeap := by
  obtain ⟨_, _, _, _, storage, _, _, _⟩ := b
  cases storage <;> simp [isHeapOf, isStack, managedBy]

/-- Shared pointers are for the blocks that count owners. -/
theorem isHeapOf_shared {b : Block} : b.isHeapOf .shared ↔ b.owners?.isSome := by
  obtain ⟨_, _, _, _, storage, _, _, _⟩ := b
  cases storage <;> simp [isHeapOf, isStack, managedBy, owners?]

theorem uncounted_of_isHeapOf {b : Block} {d : Discipline} (heap : b.isHeapOf d)
    (uncounted : d ≠ .shared) : b.isStack = false ∧ b.owners? = none := by
  obtain ⟨_, _, _, _, storage, _, _, _⟩ := b
  cases storage <;> cases d <;> simp_all [isHeapOf, isStack, managedBy, owners?]

/-- A heap block is for pointers of one discipline only. -/
theorem isHeapOf_inj {b : Block} {d e : Discipline} (first : b.isHeapOf d) (second : b.isHeapOf e) :
    d = e := by
  simp only [isHeapOf, Bool.and_eq_true, decide_eq_true_eq] at first second
  rw [← first.2, second.2]

/-- A live pointer that fits its target holds that target and nothing else. -/
theorem count_target_of_fits {b t : Block} {p : Pointer} (live : b.live)
    (holds : b.pointer? = some p) (fits : p.target = some t.id → t.isHeapOf p.discipline)
    {d : Discipline} (heap : t.isHeapOf d) :
    (b.holds d t.id).toNat = p.target.toList.count t.id := by
  by_cases kind : p.discipline = d
  · exact count_target live holds kind t.id
  · rw [holds_of_other holds kind]
    cases aimed : p.target with
    | none => rfl
    | some id =>
      have other : id ≠ t.id := fun same => kind (isHeapOf_inj (fits (same ▸ aimed)) heap)
      simp [other]

end Block

namespace Memory

/-- What the target names is a heap block of discipline `d`. -/
def Fits (m : Memory) (d : Discipline) (target : Option BlockId) : Prop :=
  ∀ t ∈ m.blocks, target = some t.id → t.isHeapOf d

section Fits

variable {m next : Memory} {d : Discipline} {target : Option BlockId} (fits : m.Fits d target)

include fits

/-- A target goes on fitting when blocks are changed in place. -/
theorem Fits.map {f : Block → Block} (blocks : next.blocks = m.blocks.map f)
    (ids : ∀ b, (f b).id = b.id) (heap : ∀ b, (f b).isHeapOf d = b.isHeapOf d) :
    next.Fits d target := by
  intro t there aimed
  rw [blocks] at there
  obtain ⟨c, known, rfl⟩ := List.mem_map.mp there
  rw [heap]
  exact fits c known (ids c ▸ aimed)

theorem Fits.aim (pointer : BlockId) (other : Option BlockId) :
    (m.update pointer (·.aim other)).Fits d target := by
  refine fits.map rfl (fun c => ?_) fun c => ?_
  · split <;> simp
  · split <;> simp

theorem Fits.countOwners {id : BlockId} {f : Nat → Nat}
    (blocks : next.blocks = (m.update id (Block.countOwners f)).blocks) : next.Fits d target := by
  refine fits.map blocks (fun c => ?_) fun c => ?_
  · split <;> simp
  · split <;> simp

/-- A target goes on fitting when another is left. -/
theorem Fits.leaveTarget (p : Pointer) : (m.leaveTarget p).Fits d target := by
  unfold Memory.leaveTarget
  split
  · rename_i old _ _
    cases m.released old with
    | kept same _ => rwa [same]
    | counted _ _ _ after => exact fits.countOwners after
    | freed _ _ _ after => exact fits.map after (by simp) (by simp)
  · exact fits

theorem Fits.enterTarget (e : Discipline) (other : Option BlockId) :
    (m.enterTarget e other).Fits d target := by
  unfold Memory.enterTarget
  split
  · exact fits
  · split
    · exact fits.countOwners rfl
    · exact fits

end Fits

/-- Every pointer of discipline `d`, dead or alive, points to a heap block of that discipline, or to
nothing. -/
def Matched (m : Memory) (d : Discipline) : Prop :=
  ∀ b ∈ m.blocks, ∀ p, b.pointer? = some p → p.discipline = d → m.Fits d p.target

/-- A change in place keeps pointers matched if it gives none a new target. -/
theorem matched_map {m next : Memory} {d : Discipline} {f : Block → Block}
    (blocks : next.blocks = m.blocks.map f) (ids : ∀ b, (f b).id = b.id)
    (heap : ∀ b, (f b).isHeapOf d = b.isHeapOf d)
    (targets : ∀ b ∈ m.blocks, ∀ p, (f b).pointer? = some p → ∀ t ∈ m.blocks, p.target = some t.id →
      p.discipline = d → t.isHeapOf d) : next.Matched d := by
  intro b member p holds kind t target aimed
  rw [blocks] at member target
  obtain ⟨old, was, rfl⟩ := List.mem_map.mp member
  obtain ⟨t, there, rfl⟩ := List.mem_map.mp target
  rw [ids] at aimed
  rw [heap]
  exact targets old was p holds t there aimed kind

namespace Matched

variable {m next : Memory} {d : Discipline} (matched : m.Matched d)

include matched

theorem congr (blocks : next.blocks = m.blocks) : next.Matched d := by
  unfold Matched Fits
  exact blocks ▸ matched

theorem bury {id : BlockId} (blocks : next.blocks = m.blocks.map (Block.bury id)) :
    next.Matched d := by
  refine matched_map blocks (by simp) (by simp) fun b member p holds t target aimed kind => ?_
  rw [Block.bury_pointer?] at holds
  obtain ⟨q, pointer, rfl⟩ := Option.map_eq_some_iff.mp holds
  exact matched b member q pointer kind t target (Pointer.without_target.mp aimed).1

theorem of_content {f : Block → Block} (blocks : next.blocks = m.blocks.map f)
    (ids : ∀ b, (f b).id = b.id) (heap : ∀ b, (f b).isHeapOf d = b.isHeapOf d)
    (content : ∀ b, (f b).content = b.content) : next.Matched d := by
  refine matched_map blocks ids heap fun b member p holds t target aimed kind => ?_
  refine matched b member p ?_ kind t target aimed
  rwa [Block.pointer?, ← content b]

theorem countOwners {id : BlockId} {f : Nat → Nat}
    (blocks : next.blocks = (m.update id (Block.countOwners f)).blocks) : next.Matched d := by
  refine matched.of_content blocks (fun b => ?_) (fun b => ?_) fun b => ?_
  · split <;> simp
  · split <;> simp
  · split <;> simp

theorem release (id : BlockId) : (m.release id).Matched d := by
  cases m.released id with
  | kept same _ => rwa [same]
  | counted _ _ _ after => exact matched.countOwners after
  | freed _ _ _ after => exact matched.bury after

/-- A pointer that is aimed at a heap block of its own discipline is matched. -/
theorem aim (sound : m.Sound) {b : Block} (member : b ∈ m.blocks) {target : Option BlockId}
    (fits : ∀ p, b.pointer? = some p → p.discipline = d → m.Fits d target) :
    (m.update b.id (·.aim target)).Matched d := by
  refine matched_map rfl (fun c => ?_) (fun c => ?_) fun c there q holds t known aimed kind => ?_
  · split <;> simp
  · split <;> simp
  · by_cases this : c.id = b.id
    · obtain rfl := sound.eq_of_id there member this
      rw [if_pos rfl, Block.aim_pointer?] at holds
      obtain ⟨p, pointer, rfl⟩ := Option.map_eq_some_iff.mp holds
      exact fits p pointer kind t known aimed
    · rw [if_neg this] at holds
      exact matched c there q holds kind t known aimed

/-- A new pointer is matched if its target fits. -/
theorem push {b : Block} (sound : m.Sound) (blocks : next.blocks = m.blocks ++ [b])
    (id : b.id = m.nextId) (live : ∀ id, b.target? = some id → m.HasLive id)
    (fits : ∀ p, b.pointer? = some p → p.discipline = d → m.Fits d p.target) : next.Matched d := by
  have bounded {c : Block} (member : c ∈ next.blocks) {x : BlockId} (aimed : c.target? = some x) :
      x < m.nextId := by
    rw [blocks] at member
    rcases List.mem_append.mp member with old | new
    · exact sound.target_lt_next old aimed
    · obtain rfl := List.mem_singleton.mp new
      obtain ⟨t, there, rfl, _⟩ := live x aimed
      exact sound.id_lt_next there
  intro c member p holds kind t target aimed
  have before := bounded member (Block.target?_eq_some.mpr ⟨p, holds, aimed⟩)
  rw [blocks] at member target
  rcases List.mem_append.mp target with there | new
  · rcases List.mem_append.mp member with old | new
    · exact matched c old p holds kind t there aimed
    · obtain rfl := List.mem_singleton.mp new
      exact fits p holds kind t there aimed
  · obtain rfl := List.mem_singleton.mp new
    rw [id] at before
    exact absurd before (Nat.lt_irrefl _)

theorem pushes {b : Block} (sound : m.Sound) (blocks : next.blocks = m.blocks ++ [b])
    (id : b.id = m.nextId) (unaimed : b.target? = none) : next.Matched d := by
  refine matched.push sound blocks id (fun x aimed => absurd (unaimed.symm.trans aimed) nofun)
    fun p holds _ t _ aimed => ?_
  rw [Block.target?_of_pointer? holds, aimed] at unaimed
  contradiction

end Matched

/-- `next` has one block more than `m`, a live one that points nowhere and counts one owner if it
counts any. -/
structure Pushes (m next : Memory) (b : Block) : Prop where
  blocks : next.blocks = m.blocks ++ [b]
  nextId : next.nextId = m.nextId + 1
  id : b.id = m.nextId
  live : b.live
  unaimed : b.target? = none
  pointerOnStack : b.pointer?.isSome → b.isStack
  single : ∀ owners, b.owners? = some owners → owners = 1

section Creation

variable (m : Memory)

theorem createVariable_pushes (name : String) (size : Nat) :
    ∃ b, m.Pushes (m.createVariable name size).2 b ∧ b.isStack :=
  ⟨_, ⟨rfl, rfl, rfl, rfl, rfl, fun _ => rfl, nofun⟩, rfl⟩

theorem createPointer_pushes (name : String) (discipline : Discipline)
    (pointee : Option ClassLayout) :
    ∃ b, m.Pushes (m.createPointer name discipline pointee).2 b ∧ b.isStack ∧
      b.pointer? = some { discipline, pointee } :=
  ⟨_, ⟨rfl, rfl, rfl, rfl, rfl, fun _ => rfl, nofun⟩, rfl, rfl⟩

theorem createObject_pushes (name : String) (layout : ClassLayout) :
    ∃ b, m.Pushes (m.createObject name layout).2 b ∧ b.isStack :=
  ⟨_, ⟨rfl, rfl, rfl, rfl, rfl, fun _ => rfl, nofun⟩, rfl⟩

/-- An allocation pushes one block, on the heap of its discipline. -/
theorem allocate_pushes (name : String) (size : Nat) (discipline : Discipline) :
    ∃ b, m.Pushes (m.allocate name size discipline).2 b ∧ b.isHeapOf discipline := by
  cases discipline with
  | raw | unique => exact ⟨_, ⟨rfl, rfl, rfl, rfl, rfl, nofun, nofun⟩, rfl⟩
  | shared =>
    exact ⟨_, ⟨rfl, rfl, rfl, rfl, rfl, nofun, fun _ counts => (Option.some.inj counts).symm⟩, rfl⟩

theorem allocateObject_pushes (name : String) (layout : ClassLayout) (discipline : Discipline) :
    ∃ b, m.Pushes (m.allocateObject name layout discipline).2 b ∧ b.isHeapOf discipline := by
  cases discipline with
  | raw | unique => exact ⟨_, ⟨rfl, rfl, rfl, rfl, rfl, nofun, nofun⟩, rfl⟩
  | shared =>
    exact ⟨_, ⟨rfl, rfl, rfl, rfl, rfl, nofun, fun _ counts => (Option.some.inj counts).symm⟩, rfl⟩

/-- The copy of a null pointer pushes one null pointer. -/
theorem pushCopy_pushes (b : Block) {p : Pointer} (null : p.target = none) (name : String) :
    ∃ c, m.Pushes (m.pushCopy b p name) c ∧ c.isStack ∧ c.pointer? = some p := by
  unfold pushCopy
  rw [null]
  exact ⟨_, ⟨rfl, rfl, rfl, rfl, null, fun _ => rfl, nofun⟩, rfl, rfl⟩

end Creation

/-- Deallocating a block that counts no owners frees it. -/
theorem deallocate_uncounted {m next : Memory} {id : BlockId} (done : m.deallocate id = .ok next)
    (uncounted : ∀ b ∈ m.blocks, b.id = id → b.owners? = none) :
    ∃ b ∈ m.blocks, b.id = id ∧ b.live ∧ next = m.free b "freed" := by
  obtain ⟨b, found, live, rfl⟩ := deallocate_eq_ok.mp done
  obtain ⟨member, same⟩ := block?_some found
  rw [uncounted b member same]
  exact ⟨b, member, same, live, rfl⟩

/-- What a unique pointer points to is freed when it is deallocated. -/
theorem Matched.deallocate {m next : Memory} (matched : m.Matched .unique) {b : Block} {p : Pointer}
    (member : b ∈ m.blocks) (holds : b.pointer? = some p) (owner : p.discipline = .unique)
    {id : BlockId} (aimed : p.target = some id) (done : m.deallocate id = .ok next) :
    ∃ t ∈ m.blocks, t.id = id ∧ t.live ∧ t.isHeapOf .unique ∧ next = m.free t "freed" := by
  have heap : ∀ t ∈ m.blocks, t.id = id → t.isHeapOf .unique :=
    fun t there same => matched b member p holds owner t there (same ▸ aimed)
  obtain ⟨t, there, same, live, rfl⟩ := deallocate_uncounted done fun t there same =>
    (Block.uncounted_of_isHeapOf (heap t there same) (by decide)).2
  exact ⟨t, there, same, live, heap t there same, rfl⟩

/-- A move frees what the taker owned, unless that is what it is given, and then hands the target
over. -/
theorem Matched.moveUnique {m next : Memory} (matched : m.Matched .unique) (sound : m.Sound)
    {source dest : BlockId} (done : m.moveUnique source dest = .ok next) :
    source ≠ dest ∧
      ∃ freed giver p taker q,
      (freed = m ∨ ∃ t ∈ m.blocks, t.isHeapOf .unique ∧ freed = m.free t "freed") ∧
      freed.LivePointer source giver p ∧ p.discipline = .unique ∧ freed.LivePointer dest taker q ∧
      q.discipline = .unique ∧ (q.target = none ∨ q.target = p.target) ∧
      next.blocks = ((freed.update dest (·.aim p.target)).update source (·.aim none)).blocks ∧
      next.nextId = freed.nextId := by
  obtain ⟨different, giver, p, taker, q, freed, given, owner, taken, owning, released, rfl⟩ :=
    moveUnique_eq_ok.mp done
  refine ⟨different, ?_⟩
  cases owned : q.target.filter (p.target ≠ some ·) with
  | none =>
    rw [owned] at released
    obtain rfl := Except.ok.inj released
    refine ⟨m, giver, p, taker, q, .inl rfl, given, owner, taken, owning, ?_, rfl, rfl⟩
    cases aimed : q.target with
    | none => exact .inl rfl
    | some id =>
      rw [aimed] at owned
      refine .inr (by_contra fun other => ?_)
      simp [Option.filter, Ne.symm other] at owned
  | some id =>
    rw [owned] at released
    obtain ⟨aimed, other⟩ := Option.filter_eq_some_iff.mp owned
    obtain ⟨t, there, rfl, _, heap, rfl⟩ :=
      matched.deallocate (block?_some taken.found).1 taken.holds owning aimed released
    have plain := sound.plain_of_heap there (Block.uncounted_of_isHeapOf heap (by decide)).1
    have apart {pointer : BlockId} {b : Block} {r : Pointer} (held : m.LivePointer pointer b r) :
        pointer ≠ t.id := by
      rintro rfl
      obtain rfl := sound.eq_of_id there (block?_some held.found).1 (block?_some held.found).2.symm
      exact absurd (plain.symm.trans held.holds) nofun
    have giving := given.bury (free_blocks m t "freed") (apart given)
    have taking := taken.bury (free_blocks m t "freed") (apart taken)
    rw [Pointer.without_of_ne (of_decide_eq_true other)] at giving
    refine ⟨_, _, p, _, _, .inr ⟨t, there, heap, rfl⟩, giving, owner, taking, owning, .inl ?_, rfl, rfl⟩
    simp [Pointer.without, aimed, Option.filter]

section Scope

variable {m : Memory} {b : Block}

theorem leaveScope_of_plain (plain : b.pointer? = none) :
    (m.leaveScope b).memory = m.free b "goes out of scope" := by
  simp only [leaveScope, plain]

/-- A raw or null pointer leaves its scope alone. -/
theorem leaveScope_of_unowned {p : Pointer} (holds : b.pointer? = some p)
    (unowned : p.target = none ∨ p.discipline = .raw) :
    (m.leaveScope b).memory = m.free b "goes out of scope" := by
  obtain ⟨d, target, pointee⟩ := p
  rcases unowned with rfl | rfl
  · cases d <;> simp only [leaveScope, holds]
  · simp only [leaveScope, holds]

/-- A shared pointer takes an owner from its target on its way out, and is null then. -/
theorem leaveScope_of_shared {p : Pointer} (holds : b.pointer? = some p)
    (owner : p.discipline = .shared) {id : BlockId} (aimed : p.target = some id) :
    (m.leaveScope b).memory =
      ((m.free b "goes out of scope").release id).update b.id (·.aim none) := by
  obtain ⟨d, target, pointee⟩ := p
  obtain rfl : d = .shared := owner
  obtain rfl : target = some id := aimed
  simp only [leaveScope, holds]

/-- A unique pointer on its way out always finds its pointee alive. -/
theorem leaveScope_of_unique (sound : m.Sound) (matched : m.Matched .unique) (member : b ∈ m.blocks)
    (stack : b.isStack) {p : Pointer} (holds : b.pointer? = some p) (owner : p.discipline = .unique)
    {id : BlockId} (aimed : p.target = some id) :
    ∃ t ∈ (m.free b "goes out of scope").blocks, t.id = id ∧ t.isHeapOf .unique ∧
      (m.leaveScope b).memory =
      ((m.free b "goes out of scope").free t "freed").update b.id (·.aim none) := by
  have other : id ≠ b.id := by
    rintro rfl
    have heap := matched b member p holds owner b member aimed
    simp [Block.isHeapOf, stack] at heap
  have popped := matched.bury (free_blocks m b "goes out of scope")
  obtain ⟨t, there, rfl, live⟩ : (m.free b "goes out of scope").HasLive id :=
    (sound.targetsLive b member id (Block.target?_eq_some.mpr ⟨p, holds, aimed⟩)).free other _
  have buried : b.bury b.id ∈ (m.free b "goes out of scope").blocks := by
    rw [free_blocks]
    exact List.mem_map_of_mem member
  have heap : t.isHeapOf .unique := by
    refine popped (b.bury b.id) buried p ?_ owner t there aimed
    rw [Block.bury_pointer?, holds, Option.map_some,
      Pointer.without_of_ne (aimed ▸ fun same => other (Option.some.inj same))]
  have uncounted := (Block.uncounted_of_isHeapOf heap (by decide)).2
  have freed : (m.free b "goes out of scope").deallocate t.id =
      .ok ((m.free b "goes out of scope").free t "freed") := by
    refine deallocate_eq_ok.mpr ⟨t, (sound.free b _).block?_of_mem there, live, ?_⟩
    rw [uncounted]
    rfl
  refine ⟨t, there, rfl, heap, ?_⟩
  obtain ⟨d, target, pointee⟩ := p
  obtain rfl : d = .unique := owner
  obtain rfl : target = some t.id := aimed
  simp only [leaveScope, holds, freed]

end Scope

end Memory

end MemoryTrace
