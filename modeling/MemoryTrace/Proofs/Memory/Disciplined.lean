import MemoryTrace.Proofs.Memory.OwnedOperations
import MemoryTrace.Proofs.Memory.Unwinding

namespace MemoryTrace.Memory

variable {m next : Memory}

/-- With an empty stack, no owner is left and no pointer at all. -/
theorem Owned.liveBlocks_eq_leakedBlocks (owned : m.Owned []) (unwound : m.endScope? = none) :
    m.liveBlocks = m.leakedBlocks := by
  have empty : m.stackBlocks = [] := by simpa [endScope?] using unwound
  have off_stack (b : Block) (member : b ∈ m.blocks) (live : b.live) : b.isStack = false := by
    refine Bool.eq_false_iff.mpr fun stack => ?_
    have there : b ∈ m.stackBlocks := by simp [stackBlocks, liveBlocks, member, live, stack]
    rw [empty] at there
    contradiction
  have no_pointer (b : Block) (member : b ∈ m.blocks) (live : b.live) : b.pointer? = none :=
    owned.sound.plain_of_heap member (off_stack b member live)
  have unheld (d : Discipline) (id : BlockId) : m.holders d id = 0 := by
    refine Nat.eq_zero_of_not_pos fun held => ?_
    obtain ⟨b, member, holds⟩ := holders_pos.mp held
    have plain := no_pointer b member (Block.holds_iff.mp holds).1
    rw [Block.holds_of_plain plain] at holds
    contradiction
  have unreferenced (id : BlockId) : m.isReferenced id = false := by
    refine List.any_eq_false.mpr fun b member => ?_
    by_cases live : b.live
    · simp [Block.target?, no_pointer b member live]
    · simp [live]
  refine List.filter_congr fun b member => ?_
  by_cases live : b.live
  · have heap : b.isHeapOf b.managedBy := by simp [Block.isHeapOf, off_stack b member live]
    have owners := owned.owners b member live b.managedBy heap
    rw [unheld] at owners
    have raw : b.managedBy = .raw := by
      cases kind : b.managedBy <;> simp_all [Discipline.Allows]
    have stored := Block.isHeapOf_raw.mp (raw ▸ heap)
    simp [live, stored, unreferenced]
  · simp [live]

/-- What a disciplined program does in one step. It owns every block it allocates on the heap,
copies and aims pointers only at what a pointer of the same discipline already points to, and
deletes through raw pointers only. -/
inductive DisciplinedStep (m : Memory) : List Operation → Prop
  | createVariable (name : String) (size : Nat) : DisciplinedStep m [.createVariable name size]
  | createObject (name : String) (layout : ClassLayout) :
      DisciplinedStep m [.createObject name layout]
  | own (name target : String) (d : Discipline) (pointee : Option ClassLayout) (size : Nat) :
      DisciplinedStep m [.createPointer name d pointee, .allocate target size d,
        .assignPointer m.nextId (some (m.nextId + 1))]
  | ownObject (name target : String) (d : Discipline) (pointee : Option ClassLayout)
      (layout : ClassLayout) :
      DisciplinedStep m [.createPointer name d pointee, .allocateObject target layout d,
        .assignPointer m.nextId (some (m.nextId + 1))]
  | copyShared {source : BlockId} {b : Block} {p : Pointer} (name : String) :
      m.LivePointer source b p → p.discipline = .shared →
      DisciplinedStep m [.copyShared source name]
  | aliasRaw {source : BlockId} {b : Block} {p : Pointer} (name : String)
      (pointee : Option ClassLayout) :
      m.LivePointer source b p → p.discipline = .raw →
      DisciplinedStep m [.createPointer name .raw pointee, .assignPointer m.nextId p.target]
  | delete {source id : BlockId} {b : Block} {p : Pointer} :
      m.LivePointer source b p → p.discipline = .raw → p.target = some id →
      DisciplinedStep m [.deallocate id]
  | reassign {source dest : BlockId} {b c : Block} {p q : Pointer} :
      m.LivePointer source b p → p.discipline = .shared →
      m.LivePointer dest c q → q.discipline = .shared →
      DisciplinedStep m [.assignPointer dest p.target]
  | moveUnique {source dest : BlockId} {b c : Block} {p q : Pointer} :
      m.LivePointer source b p → p.discipline = .unique →
      m.LivePointer dest c q → q.discipline = .unique → source ≠ dest →
      DisciplinedStep m [.moveUnique source dest]
  | endScope : DisciplinedStep m [.endScope]
  | tick : DisciplinedStep m [.tick]
  | reportLeaks : DisciplinedStep m [.reportLeaks]

/-- The memories that disciplined steps reach from a fresh one. -/
inductive DisciplinedReach : Memory → Prop
  | fresh (capacity : Nat) : DisciplinedReach (withCapacity capacity)
  | next {m : Memory} {operations : List Operation} :
      DisciplinedReach m → DisciplinedStep m operations → DisciplinedReach (m.run operations)

/-- A pointer just created and a heap block just allocated for it end up owner and owned. -/
theorem Owned.own (owned : m.Owned []) {created allocated : Memory} {d : Discipline} {b t : Block}
    {pointee : Option ClassLayout} (first : m.Pushes created b) (stack : b.isStack)
    (holds : b.pointer? = some { discipline := d, pointee }) (second : created.Pushes allocated t)
    (heap : t.isHeapOf d) :
    (allocated.perform (.assignPointer m.nextId (some (m.nextId + 1)))).2.Owned [] := by
  have made := owned.pushesStack first stack
  have loose := made.pushesHeap second heap
  have number : t.id = m.nextId + 1 := second.id.trans first.nextId
  have there : t ∈ allocated.blocks :=
    second.blocks ▸ List.mem_append_right _ (List.mem_singleton_self t)
  have known : b ∈ allocated.blocks := by simp [second.blocks, first.blocks]
  have held : allocated.LivePointer m.nextId b { discipline := d, pointee } :=
    ⟨loose.sound.block?_eq_some.mpr ⟨known, first.id⟩, first.live, holds⟩
  obtain ⟨next, done⟩ : ∃ next, allocated.assignPointer m.nextId (some (m.nextId + 1)) = .ok next := by
    refine ⟨_, assignPointer_eq_ok.mpr ⟨b, _, held, fun id aimed => ?_, rfl⟩⟩
    obtain rfl := Option.some.inj aimed
    exact ⟨t, loose.sound.block?_eq_some.mpr ⟨there, number⟩, second.live⟩
  have fits : allocated.Fits d (some (m.nextId + 1)) := by
    intro u member aimed
    obtain rfl := loose.sound.eq_of_id member there ((Option.some.inj aimed).symm.trans number.symm)
    exact heap
  rw [number] at loose
  simp only [perform, done, Memory.settle]
  cases d with
  | raw => exact loose.assignRaw held done rfl fits
  | unique => exact loose.assignUnique held done rfl rfl fits
  | shared =>
    have fresh := second.untargeted made.sound
    rw [number] at fresh
    refine loose.assignShared held done rfl (.inr ⟨rfl, fun id aimed => ?_⟩) fits
    exact Option.some.inj aimed ▸ fresh

/-- Every step of a disciplined program leaves all owners in place. -/
theorem Owned.step {operations : List Operation} (owned : m.Owned [])
    (step : DisciplinedStep m operations) : (m.run operations).Owned [] := by
  cases step with
  | createVariable name size =>
    obtain ⟨b, pushed, stack⟩ := m.createVariable_pushes name size
    exact owned.pushesStack pushed stack
  | createObject name layout =>
    obtain ⟨b, pushed, stack⟩ := m.createObject_pushes name layout
    exact owned.pushesStack pushed stack
  | own name target d pointee size =>
    obtain ⟨b, first, stack, holds⟩ := m.createPointer_pushes name d pointee
    obtain ⟨t, second, heap⟩ := (m.createPointer name d pointee).2.allocate_pushes target size d
    exact owned.own first stack holds second heap
  | ownObject name target d pointee layout =>
    obtain ⟨b, first, stack, holds⟩ := m.createPointer_pushes name d pointee
    obtain ⟨t, second, heap⟩ :=
      (m.createPointer name d pointee).2.allocateObject_pushes target layout d
    exact owned.own first stack holds second heap
  | @copyShared source b p name held owner =>
    have copied : m.copyShared source name = .ok (m.nextId, m.pushCopy b p name) :=
      copyShared_eq_ok.mpr ⟨b, p, held, owner, rfl, rfl⟩
    have copy : m.run [.copyShared source name] = m.pushCopy b p name := by
      rw [run, List.foldl_cons, List.foldl_nil, perform, copied]
      rfl
    exact copy ▸ owned.pushCopy held owner name
  | @aliasRaw source b p name pointee held owner =>
    obtain ⟨c, pushed, stack, holds⟩ := m.createPointer_pushes name .raw pointee
    have made := owned.pushesStack pushed stack
    have member : b ∈ (m.createPointer name .raw pointee).2.blocks := by
      rw [pushed.blocks]
      exact List.mem_append_left _ (block?_some held.found).1
    have known : c ∈ (m.createPointer name .raw pointee).2.blocks := by simp [pushed.blocks]
    refine settle_keeps (Owned · []) made fun next done => made.assignRaw (b := c) (p := { discipline := .raw, pointee })
      ⟨made.sound.block?_eq_some.mpr ⟨known, pushed.id⟩, pushed.live, holds⟩ done rfl ?_
    exact made.matched .raw b member p held.holds owner
  | @delete source id b p held owner aimed =>
    refine settle_keeps (Owned · []) owned fun next done => ?_
    have fits := owned.matched .raw b (block?_some held.found).1 p held.holds owner
    have heap (t : Block) (there : t ∈ m.blocks) (same : t.id = id) :
        t.isStack = false ∧ t.owners? = none :=
      Block.uncounted_of_isHeapOf (fits t there (same ▸ aimed)) (by decide)
    obtain ⟨t, there, same, _, rfl⟩ :=
      deallocate_uncounted done fun t there same => (heap t there same).2
    exact owned.freeHeap there (heap t there same).1 _
  | @reassign source dest b c p q held owner taken taker =>
    refine settle_keeps (Owned · []) owned fun next done => owned.assignShared taken done taker (.inl rfl) ?_
    exact owned.matched .shared b (block?_some held.found).1 p held.holds owner
  | moveUnique _ _ _ _ _ => exact settle_keeps (Owned · []) owned fun next done => owned.moveUnique done
  | endScope => exact owned.endScope
  | tick => exact owned.tick
  | reportLeaks => exact owned.reportLeaks

/-- Disciplined runs leave all owners in place. -/
theorem DisciplinedReach.owned (reach : DisciplinedReach m) : m.Owned [] := by
  induction reach with
  | fresh capacity => exact owned_withCapacity capacity
  | next _ step ih => exact ih.step step

theorem Owned.unwind (owned : m.Owned []) (n : Nat) :
    (m.run (.replicate n .endScope)).Owned [] := by
  induction n generalizing m with
  | zero => exact owned
  | succ n ih =>
    rw [List.replicate_succ, run_cons]
    exact ih owned.endScope

/-- In every state of a disciplined run each live block on the unique heap has exactly one owner and
each on the shared heap has one or more. The stack can always be unwound, and then nothing is live
but what has leaked. -/
theorem disciplined_runs_leak_only_raw (reach : DisciplinedReach m) :
    (∀ b ∈ m.blocks, b.live → b.storage = .uniqueHeap → m.holders .unique b.id = 1) ∧
    (∀ b ∈ m.blocks, b.live → ∀ owners, b.storage = .sharedHeap owners → 1 ≤ m.holders .shared b.id) ∧
    (∃ n, (m.run (.replicate n .endScope)).endScope? = none) ∧
    ∀ n, (m.run (.replicate n .endScope)).endScope? = none →
      (m.run (.replicate n .endScope)).liveBlocks.map (·.id) = (m.run (.replicate n .endScope)).leaks := by
  have owned := reach.owned
  refine ⟨fun b member live stored => ?_, fun b member live owners stored => ?_, exists_unwound m,
    fun n unwound => ?_⟩
  · exact owned.owners b member live .unique (Block.isHeapOf_unique.mpr stored)
  · have counts : b.owners?.isSome := by simp [Block.owners?, stored]
    exact owned.owners b member live .shared (Block.isHeapOf_shared.mpr counts)
  · rw [(owned.unwind n).liveBlocks_eq_leakedBlocks unwound]
    rfl

/-- One pointer of each discipline, each with its block. Only the raw block survives the
unwinding. -/
theorem disciplined_runs_leak_only_raw_of_three :
    ∃ m, DisciplinedReach m ∧
      (∃ b ∈ m.blocks, b.live ∧ b.storage = .uniqueHeap ∧ m.holders .unique b.id = 1) ∧
      (m.run (.replicate 3 .endScope)).leaks = [2] ∧
      (m.run (.replicate 3 .endScope)).liveBlocks.map (·.id) =
        (m.run (.replicate 3 .endScope)).leaks := by
  let first := (withCapacity 8).run [.createPointer "r" .raw none, .allocate "*r" 4 .raw,
    .assignPointer 1 (some 2)]
  let second :=
    first.run [.createPointer "u" .unique none, .allocate "*u" 4 .unique, .assignPointer 3 (some 4)]
  let m := second.run [.createPointer "s" .shared none, .allocate "*s" 4 .shared,
    .assignPointer 5 (some 6)]
  have raw : DisciplinedReach first := .next (.fresh 8) (.own "r" "*r" .raw none 4)
  have unique : DisciplinedReach second := .next raw (.own "u" "*u" .unique none 4)
  have shared : DisciplinedReach m := .next unique (.own "s" "*s" .shared none 4)
  have proved := disciplined_runs_leak_only_raw shared
  refine ⟨m, shared, ?_, by decide, proved.2.2.2 3 (by decide)⟩
  have owned : m.blocks.any fun b => b.live ∧ b.storage = .uniqueHeap := by decide
  obtain ⟨b, member, live, stored⟩ := by
    simpa only [List.any_eq_true, decide_eq_true_eq] using owned
  exact ⟨b, member, live, stored, proved.1 b member live stored⟩

end MemoryTrace.Memory
