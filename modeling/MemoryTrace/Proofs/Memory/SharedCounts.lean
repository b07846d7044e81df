import MemoryTrace.Proofs.Memory.Aiming
import MemoryTrace.Proofs.Memory.Counted

namespace MemoryTrace.Memory

variable {m next : Memory}

namespace Counted

variable {loose : List BlockId} (counted : m.Counted loose)

include counted

/-- A pointer that is not shared changes no count wherever it is aimed. -/
theorem aimUncounted {pointer : BlockId} {b : Block} {p : Pointer}
    (held : m.LivePointer pointer b p) (owner : p.discipline ≠ .shared) (target : Option BlockId)
    (live : ∀ id, target = some id → m.HasLive id)
    (fits : p.discipline = .unique → m.Fits .unique target) :
    (m.update pointer (·.aim target)).Counted loose := by
  obtain ⟨member, rfl⟩ := block?_some held.found
  refine counted.aim member live (fun q holds kind => ?_) fun t _ _ => ?_
  · obtain rfl := Option.some.inj (held.holds.symm.trans holds)
    exact fits kind
  · have after := (held.aim target).holds
    rw [Block.holds_of_other held.holds owner, Block.holds_of_other after owner]

/-- Nulling a dead pointer changes no count. -/
theorem aimDead {id : BlockId} (dead : ¬ m.HasLive id) :
    (m.update id (·.aim none)).Counted loose := by
  by_cases known : ∃ b ∈ m.blocks, b.id = id
  · obtain ⟨b, member, rfl⟩ := known
    refine counted.aim member nofun (fun _ _ _ _ _ aimed => nomatch aimed) fun t _ _ => ?_
    rw [Block.holds_aim_none, Block.holds_of_dead fun live => dead ⟨b, member, rfl, live⟩]
  · exact counted.congr (update_blocks_of_unknown known) rfl

/-- Freeing a block that counts no owners and is no pointer changes no count. -/
theorem buryPlain {b : Block} (member : b ∈ m.blocks) (plain : b.pointer? = none)
    (blocks : next.blocks = m.blocks.map (Block.bury b.id)) (nextId : next.nextId = m.nextId) :
    next.Counted loose := by
  refine counted.bury member blocks nextId fun t _ _ _ => ?_
  rw [Block.holds_of_plain plain]
  rfl

end Counted

/-- What a shared pointer leaves is the operation's until it is released. -/
theorem Counted.leaveTarget {p : Pointer} (owner : p.discipline = .shared)
    (counted : m.Counted p.target.toList) : (m.leaveTarget p).Counted [] := by
  obtain ⟨d, target, pointee⟩ := p
  obtain rfl : d = .shared := owner
  cases target with
  | none => exact counted
  | some id => exact counted.release

section Operations

variable (counted : m.Counted [])

include counted

/-- A new target is entered by an owner that the operation hands over. -/
theorem Counted.enterTarget {target : Option BlockId}
    (live : ∀ id, target = some id → m.HasLive id) :
    (m.enterTarget .shared target).Counted target.toList := by
  cases target with
  | none => exact counted
  | some id =>
    unfold Memory.enterTarget
    dsimp only
    by_cases owned : m.blocks.any (·.sharesOwnershipOf id)
    · rw [if_pos ⟨rfl, owned⟩]
      refine counted.retain (fun t member same => ?_) ?_
      · obtain ⟨b, there, this, alive⟩ := live id rfl
        exact counted.sound.eq_of_id there member (this.trans same.symm) ▸ alive
      · exact Nat.add_pos_left (holders_pos.mpr (List.any_eq_true.mp owned)) _
    · rw [if_neg fun both => owned both.2]
      refine counted.adopt (Nat.eq_zero_of_not_pos fun held => owned (List.any_eq_true.mpr ?_))
      exact holders_pos.mp held

theorem Counted.reaim {pointer : BlockId} {b : Block} {p : Pointer}
    (held : m.LivePointer pointer b p) {target : Option BlockId} (moved : p.target ≠ target)
    (live : ∀ id, target = some id → m.HasLive id)
    (fits : p.discipline = .unique → m.Fits .unique target) : (m.reaim b p target).Counted [] := by
  have blocks := reaim_blocks counted.sound held moved
  obtain ⟨member, rfl⟩ := block?_some held.found
  by_cases owner : p.discipline = .shared
  · have nulled : (m.update b.id (·.aim none)).Counted p.target.toList := by
      refine counted.aim member nofun (fun _ _ _ _ _ aimed => nomatch aimed) fun t _ _ => ?_
      rw [Block.holds_aim_none, Block.count_target held.live held.holds owner]
      simp
    have left : ((m.update b.id (·.aim none)).leaveTarget p).Counted [] := nulled.leaveTarget owner
    have alive : ∀ id, target = some id → ((m.update b.id (·.aim none)).leaveTarget p).HasLive id :=
      fun id aimed => ((live id aimed).aim none).leaveTarget (aimed ▸ moved)
    have entered := left.enterTarget alive
    obtain ⟨c, outside⟩ := (held.aim none).leaveTarget nulled.sound rfl p
    obtain ⟨c, inside⟩ := outside.enterTarget .shared target
    obtain ⟨there, same⟩ := block?_some inside.found
    have aimed : ((((m.update b.id (·.aim none)).leaveTarget p).enterTarget .shared target).update c.id
        (·.aim target)).Counted [] := by
      refine entered.aim there (fun id aimed => (alive id aimed).enterTarget .shared target)
        (fun q holds kind => ?_) fun t _ _ => ?_
      · obtain rfl := Option.some.inj (inside.holds.symm.trans holds)
        exact absurd (owner.symm.trans kind) (by decide)
      · have after := inside.aim target
        rw [Block.count_target after.live after.holds owner,
          Block.count_target inside.live inside.holds owner]
        simp
    rw [same] at aimed
    rw [owner] at blocks
    exact aimed.congr blocks (by simp)
  · exact (counted.aimUncounted held owner target live fits).congr
      (reaim_blocks_of_not_shared owner target) (reaim_nextId ..)

theorem Counted.pushes {b : Block} (pushed : m.Pushes next b) : next.Counted [] := by
  have sound :=
    counted.sound.push pushed.blocks pushed.nextId pushed.id pushed.pointerOnStack fun _ aimed =>
    absurd (pushed.unaimed.symm.trans aimed) nofun
  have matched := counted.matched.pushes counted.sound pushed.blocks pushed.id pushed.unaimed
  refine counted.push sound matched pushed.blocks pushed.id pushed.live
    (fun owners counts => ⟨pushed.single owners counts, Nat.zero_le _⟩) fun t _ _ => ?_
  rw [Block.holds_of_unaimed pushed.unaimed]
  rfl

/-- No pointer lies on the heap, so freeing a heap block changes no count. -/
theorem Counted.freeHeap {b : Block} (member : b ∈ m.blocks) (heap : b.isStack = false)
    (reason : String) : (m.free b reason).Counted [] :=
  counted.buryPlain member (counted.sound.plain_of_heap member heap) (free_blocks m b reason) rfl

/-- Deallocating by hand is for blocks that count no owners. -/
theorem Counted.deallocate {id : BlockId} (done : m.deallocate id = .ok next)
    (uncounted : ∀ b ∈ m.blocks, b.id = id → b.isStack = false ∧ b.owners? = none) :
    next.Counted [] := by
  obtain ⟨b, found, _, rfl⟩ := deallocate_eq_ok.mp done
  obtain ⟨member, same⟩ := block?_some found
  obtain ⟨heap, none_counted⟩ := uncounted b member same
  rw [none_counted]
  exact counted.freeHeap member heap _

/-- An assignment keeps the counts exact, unless it lets a unique pointer share a block. -/
theorem Counted.assignPointer {pointer : BlockId} {target : Option BlockId}
    (done : m.assignPointer pointer target = .ok next)
    (fits : ∀ b p, m.LivePointer pointer b p → p.discipline = .unique → m.Fits .unique target) :
    next.Counted [] := by
  obtain ⟨b, p, held, live, rfl⟩ := assignPointer_eq_ok.mp done
  split
  · exact counted
  · rename_i moved
    refine counted.reaim held moved (fun id aimed => ?_) (fits b p held)
    obtain ⟨t, found, alive⟩ := live id aimed
    exact hasLive_of_block? found alive

theorem Counted.pushCopy {source : BlockId} {b : Block} {p : Pointer}
    (held : m.LivePointer source b p) (owner : p.discipline = .shared) (name : String) :
    (m.pushCopy b p name).Counted [] := by
  have sound := counted.sound.pushCopy held name
  cases aimed : p.target with
  | none =>
    obtain ⟨c, pushed, _⟩ := pushCopy_pushes m b aimed name
    exact counted.pushes pushed
  | some id =>
    obtain ⟨c, blocks, number, live, stack, holds⟩ := pushCopy_blocks m b aimed name
    have shares : b.holds .shared id := Block.holds_iff.mpr ⟨held.live, p, held.holds, owner, aimed⟩
    have target :=
      counted.sound.targetsLive b (block?_some held.found).1 id (Block.target?_of_holds shares)
    have retained : (m.retain id).Counted [id] := by
      refine counted.retain (fun t member same => ?_) (Nat.add_pos_left ?_ _)
      · obtain ⟨t', there, this, alive⟩ := target
        exact counted.sound.eq_of_id there member (this.trans same.symm) ▸ alive
      · exact holders_pos.mpr ⟨b, (block?_some held.found).1, shares⟩
    have points : c.target? = some id := (Block.target?_of_pointer? holds).trans aimed
    have matched : (m.pushCopy b p name).Matched .unique := by
      refine retained.matched.push retained.sound blocks number (fun x other => ?_)
        fun q pointer kind => ?_
      · exact Option.some.inj (points.symm.trans other) ▸ target.countOwners rfl
      · obtain rfl := Option.some.inj (holds.symm.trans pointer)
        exact absurd (owner.symm.trans kind) (by decide)
    refine retained.push sound matched blocks number live (fun owners counts => ?_) fun t _ _ => ?_
    · rw [Block.owners?_of_isStack stack] at counts
      contradiction
    · rw [Block.count_target live holds owner, aimed]
      simp

theorem Counted.moveUnique {source dest : BlockId} (done : m.moveUnique source dest = .ok next) :
    next.Counted [] := by
  obtain ⟨different, freed, giver, p, taker, q, shape, giving, owner, taking, owning, _, blocks,
    nextId⟩ :=
    counted.matched.moveUnique counted.sound done
  have left : freed.Counted [] := by
    rcases shape with rfl | ⟨t, there, heap, rfl⟩
    · exact counted
    · exact counted.freeHeap there (Block.uncounted_of_isHeapOf heap (by decide)).1 _
  have member := (block?_some giving.found).1
  have live := left.sound.targetsLive giver member
  have given : (freed.update dest (·.aim p.target)).Counted [] := by
    refine left.aimUncounted taking (owning ▸ by decide) p.target (fun id aimed => ?_)
      fun _ t there aimed => ?_
    · exact live id (Block.target?_eq_some.mpr ⟨p, giving.holds, aimed⟩)
    · exact left.matched giver member p giving.holds owner t there aimed
  have still := giving.aimOther different p.target
  have taken :=
    given.aimUncounted still (owner ▸ by decide) none nofun fun _ _ _ aimed => nomatch aimed
  exact taken.congr blocks nextId

theorem Counted.leaveScope {b : Block} (member : b ∈ m.blocks) (live : b.live) (stack : b.isStack) :
    (m.leaveScope b).memory.Counted [] := by
  have popped {rest : List BlockId}
      (balance : ∀ t : BlockId, (b.holds .shared t).toNat = rest.count t) :
      (m.free b "goes out of scope").Counted rest := by
    refine counted.bury member (free_blocks ..) rfl fun t _ _ _ => ?_
    rw [balance t.id, List.count_nil, Nat.zero_add]
  have dead := not_hasLive_free m b "goes out of scope"
  cases holds : b.pointer? with
  | none =>
    rw [leaveScope_of_plain holds]
    exact popped fun t => by rw [Block.holds_of_plain holds]; rfl
  | some p =>
    by_cases owner : p.discipline = .shared
    · have owed := popped (Block.count_target live holds owner)
      cases aimed : p.target with
      | none =>
        rw [leaveScope_of_unowned holds (.inl aimed)]
        rwa [aimed] at owed
      | some id =>
        rw [leaveScope_of_shared holds owner aimed]
        rw [aimed] at owed
        exact owed.release.aimDead fun alive => dead (alive.of_shrinks (.release ..))
    · have owed : (m.free b "goes out of scope").Counted [] :=
        popped fun t => by rw [Block.holds_of_other holds owner]; rfl
      cases kind : p.discipline with
      | shared => exact absurd kind owner
      | raw =>
        rw [leaveScope_of_unowned holds (.inr kind)]
        exact owed
      | unique =>
        cases aimed : p.target with
        | none =>
          rw [leaveScope_of_unowned holds (.inl aimed)]
          exact owed
        | some id =>
          obtain ⟨t, there, _, heap, after⟩ :=
            leaveScope_of_unique counted.sound counted.matched member stack holds kind aimed
          rw [after]
          have freed := owed.freeHeap there (Block.uncounted_of_isHeapOf heap (by decide)).1 "freed"
          exact freed.aimDead fun alive => dead (alive.of_shrinks (.free ..))

theorem Counted.reportLeaks : m.reportLeaks.Counted [] :=
  counted.congr (reportLeaks_keeps blocks (fun _ _ _ _ => rfl) m)
    (reportLeaks_keeps nextId (fun _ _ _ _ => rfl) m)

theorem Counted.tick : m.tick.Counted [] where
  sound := counted.sound.tick
  matched := counted.matched.of_content (f := Block.age) rfl (by simp)
    (fun b => Block.isHeapOf_congr (Block.age_storage b) _) (by simp)
  counts := by
    intro b member owners counts
    obtain ⟨c, there, rfl⟩ := List.mem_map.mp member
    rw [Block.age_live, Block.age_id, holders_map (m := m) (f := Block.age) rfl (by simp) (by simp)]
    exact counted.counts c there owners (Block.owners?_congr (Block.age_storage c) ▸ counts)

end Operations

/-- An operation that does not meddle with shared blocks: what it deallocates by hand lies on the
raw or the unique heap, and a unique pointer is aimed at the unique heap only. Whatever is refused
meddles with nothing. -/
def SparesShared (m : Memory) (operation : Operation) : Prop :=
  (∃ e, (m.perform operation).1 = .refused e) ∨
    match operation with
    | .deallocate id => ∀ b, m.block? id = some b → b.storage = .heap ∨ b.storage = .uniqueHeap
    | .assignPointer pointer (some target) => ∀ b p t, m.block? pointer = some b → b.pointer? = some p →
        p.discipline = .unique → m.block? target = some t → t.storage = .uniqueHeap
    | _ => True

/-- Every operation that spares shared blocks keeps the counts exact. -/
theorem Counted.perform {operation : Operation} (counted : m.Counted [])
    (spares : m.SparesShared operation) : (m.perform operation).2.Counted [] := by
  rcases spares with ⟨e, refused⟩ | spares
  · rwa [perform_refused refused]
  cases operation with
  | createVariable name size =>
    obtain ⟨b, pushed, _⟩ := m.createVariable_pushes name size
    exact counted.pushes pushed
  | createPointer name discipline pointee =>
    obtain ⟨b, pushed, _⟩ := m.createPointer_pushes name discipline pointee
    exact counted.pushes pushed
  | createObject name layout =>
    obtain ⟨b, pushed, _⟩ := m.createObject_pushes name layout
    exact counted.pushes pushed
  | allocate name size discipline =>
    obtain ⟨b, pushed, _⟩ := m.allocate_pushes name size discipline
    exact counted.pushes pushed
  | allocateObject name layout discipline =>
    obtain ⟨b, pushed, _⟩ := m.allocateObject_pushes name layout discipline
    exact counted.pushes pushed
  | deallocate id =>
    refine settle_keeps (Counted · []) counted fun next done => counted.deallocate done fun b member same => ?_
    rcases spares b (counted.sound.block?_eq_some.mpr ⟨member, same⟩) with raw | unique
    · simp [Block.isStack, Block.owners?, raw]
    · simp [Block.isStack, Block.owners?, unique]
  | assignPointer pointer target =>
    refine settle_keeps (Counted · []) counted fun next done => counted.assignPointer done
      fun b p held owner t member aimed => ?_
    subst aimed
    have there := counted.sound.block?_of_mem member
    exact Block.isHeapOf_unique.mpr (spares b p t held.found held.holds owner there)
  | copyShared source name =>
    exact perform_copyShared_keeps (Counted · []) counted fun b p held owner => counted.pushCopy held owner name
  | moveUnique source dest => exact settle_keeps (Counted · []) counted fun next done => counted.moveUnique done
  | endScope => exact perform_endScope_keeps (Counted · []) counted fun b => counted.leaveScope
  | reportLeaks => exact counted.reportLeaks
  | tick => exact counted.tick
  | reset => exact counted_withCapacity _

/-- Runs of operations that spare shared blocks keep the counts exact. -/
theorem Reach.counted (reach : Reach SparesShared m) : m.Counted [] := by
  induction reach with
  | fresh capacity => exact counted_withCapacity capacity
  | next _ spares ih => exact ih.perform spares

/-- As long as nothing meddles with shared blocks, each counts its live shared pointers, but at
least one while it lives. A freed one counts none, and nothing points to it. -/
theorem shared_counts_exact (reach : Reach SparesShared m) :
    ∀ b ∈ m.blocks, ∀ owners, b.storage = .sharedHeap owners →
      (b.live → owners = max 1 (m.holders .shared b.id)) ∧
      (¬ b.live → owners = 0 ∧ ∀ c ∈ m.blocks, c.target? ≠ some b.id) := by
  intro b member owners stored
  have counts := reach.counted.counts b member owners (by simp [Block.owners?, stored])
  constructor
  · intro live
    simpa [live] using counts
  · intro dead
    refine ⟨by simpa [dead] using counts, fun c there aimed => ?_⟩
    obtain ⟨t, known, same, live⟩ := reach.sound.targetsLive c there b.id aimed
    obtain rfl := reach.sound.eq_of_id known member same
    exact dead live

/-- Two shared pointers own block 2, while a raw block is allocated and deallocated. -/
theorem shared_counts_exact_of_copy :
    ∃ m, Reach SparesShared m ∧ ∃ b ∈ m.blocks, b.storage = .sharedHeap 2 ∧ b.live ∧
      2 = max 1 (m.holders .shared b.id) := by
  let owned := (withCapacity 8).run [.createPointer "p" .shared none, .allocate "*p" 4 .shared]
  let copied := owned.run [.assignPointer 1 (some 2), .copyShared 1 "q", .allocate "*r" 4 .raw]
  have own : Reach SparesShared owned := .next (.next (.fresh 8) (.inr trivial)) (.inr trivial)
  have assign : SparesShared owned (.assignPointer 1 (some 2)) := by
    refine .inr fun b p t found holds unique _ => ?_
    obtain rfl := Option.some.inj found
    obtain rfl := Option.some.inj holds
    contradiction
  have copy : Reach SparesShared copied :=
    .next (.next (.next own assign) (.inr trivial)) (.inr trivial)
  have free : SparesShared copied (.deallocate 4) := by
    refine .inr fun b found => ?_
    obtain rfl := Option.some.inj found
    exact .inl rfl
  have reach : Reach SparesShared (copied.perform (.deallocate 4)).2 := .next copy free
  have shares : (copied.perform (.deallocate 4)).2.blocks.any fun b =>
      b.storage = .sharedHeap 2 ∧ b.live := by decide
  obtain ⟨b, member, stored, live⟩ := by
    simpa only [List.any_eq_true, decide_eq_true_eq] using shares
  exact ⟨_, reach, b, member, stored, live, (shared_counts_exact reach b member 2 stored).1 live⟩

end MemoryTrace.Memory
