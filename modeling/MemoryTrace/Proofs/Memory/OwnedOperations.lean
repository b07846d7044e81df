import MemoryTrace.Proofs.Memory.Owned

namespace MemoryTrace.Memory

variable {m next : Memory} {loose : List BlockId}

/-- Nothing points to a block that was just pushed. -/
theorem Pushes.untargeted {b : Block} (pushed : m.Pushes next b) (sound : m.Sound) :
    next.Untargeted b.id := by
  intro c member aimed
  rw [pushed.blocks] at member
  rcases List.mem_append.mp member with old | new
  · exact Nat.lt_irrefl _ (pushed.id ▸ sound.target_lt_next old aimed)
  · obtain rfl := List.mem_singleton.mp new
    exact absurd (pushed.unaimed.symm.trans aimed) nofun

namespace Owned

/-- No pointer lies on the heap, so freeing a heap block takes no owner away. -/
theorem freeHeap (owned : m.Owned loose) {b : Block} (member : b ∈ m.blocks)
    (heap : b.isStack = false) (reason : String) : (m.free b reason).Owned loose := by
  refine owned.bury member (free_blocks m b reason) rfl fun t _ _ d _ _ => ?_
  rw [Block.holds_of_plain (owned.sound.plain_of_heap member heap)]
  rfl

/-- A heap block that the operation owns may be freed. -/
theorem freeOwned {b : Block} (owned : m.Owned (b.id :: loose)) (member : b ∈ m.blocks)
    (heap : b.isStack = false) (reason : String) : (m.free b reason).Owned loose := by
  refine owned.bury member (free_blocks m b reason) rfl fun t _ other d _ _ => ?_
  rw [Block.holds_of_plain (owned.sound.plain_of_heap member heap),
    List.count_cons_of_ne (Ne.symm other)]
  rfl

/-- Nulling a dead pointer takes no owner away. -/
theorem aimDead (owned : m.Owned loose) {id : BlockId} (dead : ¬ m.HasLive id) :
    (m.update id (·.aim none)).Owned loose := by
  by_cases known : ∃ b ∈ m.blocks, b.id = id
  · obtain ⟨b, member, rfl⟩ := known
    refine owned.aim member nofun (fun _ _ _ _ aimed => nomatch aimed) fun t _ d _ _ => ?_
    rw [Block.holds_aim_none, Block.holds_of_dead fun live => dead ⟨b, member, rfl, live⟩]
  · exact owned.congr (update_blocks_of_unknown known) rfl

/-- The owner of a new block, if it needs one, is the operation. -/
theorem pushes (owned : m.Owned []) {b : Block} (pushed : m.Pushes next b)
    (own : ∀ d, b.isHeapOf d → d.Allows (loose.count b.id)) (only : ∀ id ∈ loose, id = b.id)
    (once : loose.Nodup) : next.Owned loose := by
  have unheld (d : Discipline) : next.holders d b.id = 0 :=
    holders_eq_zero (pushed.untargeted owned.sound)
  have before := owned.counted.pushes pushed
  have counted : next.Counted loose := by
    refine before.reweigh fun t _ _ _ => ?_
    by_cases same : t.id = b.id
    · rw [same, unheld, List.count_nil]
      have few := List.nodup_iff_count_le_one.mp once b.id
      omega
    · rw [List.count_eq_zero.mpr fun there => same (only t.id there), List.count_nil]
  have matched (d : Discipline) : next.Matched d :=
    (owned.matched d).pushes owned.sound pushed.blocks pushed.id pushed.unaimed
  refine ⟨counted, matched, fun c member live d heap => ?_⟩
  rw [pushed.blocks] at member
  rcases List.mem_append.mp member with old | new
  · have other : c.id ≠ b.id :=
      fun same => Nat.lt_irrefl _ (pushed.id ▸ same ▸ owned.sound.id_lt_next old)
    have held : next.holders d c.id = m.holders d c.id := by
      rw [holders_push pushed.blocks, Block.holds_of_unaimed pushed.unaimed]
      rfl
    rw [held, List.count_eq_zero.mpr fun there => other (only c.id there)]
    exact owned.owners c old live d heap
  · obtain rfl := List.mem_singleton.mp new
    rw [unheld, Nat.zero_add]
    exact own d heap

theorem pushesStack (owned : m.Owned []) {b : Block} (pushed : m.Pushes next b)
    (stack : b.isStack) : next.Owned [] := by
  refine owned.pushes pushed (fun d heap => ?_) nofun List.nodup_nil
  rw [Block.isHeapOf, stack] at heap
  contradiction

/-- A raw block needs no owner, any other heap block is the operation's. -/
theorem pushesHeap (owned : m.Owned []) {b : Block} (pushed : m.Pushes next b) {d : Discipline}
    (heap : b.isHeapOf d) : next.Owned (if d = .raw then [] else [b.id]) := by
  refine owned.pushes pushed (fun e other => ?_) ?_ ?_
  · obtain rfl := Block.isHeapOf_inj heap other
    cases d <;> simp [Discipline.Allows]
  · split <;> simp
  · split <;> simp

theorem leaveTarget {p : Pointer} (owned : m.Owned (p.target.toList ++ loose))
    (owner : p.discipline = .shared) (fits : m.Fits .shared p.target) :
    (m.leaveTarget p).Owned loose := by
  obtain ⟨d, target, pointee⟩ := p
  obtain rfl : d = .shared := owner
  cases target with
  | none => exact owned
  | some id => exact owned.release fun t there same => fits t there (congrArg some same.symm)

/-- The new target of a shared pointer has owners already, or the operation has just made it. -/
theorem enterTarget {target : Option BlockId} (owned : m.Owned loose)
    (supply : loose = [] ∨ loose = target.toList ∧ ∀ id, target = some id → m.Untargeted id)
    (live : ∀ id, target = some id → m.HasLive id)
    (fits : m.Fits .shared target) :
    (m.enterTarget .shared target).Owned target.toList := by
  cases target with
  | none => rcases supply with rfl | ⟨rfl, _⟩ <;> exact owned
  | some id =>
    unfold Memory.enterTarget
    dsimp only
    rcases supply with rfl | ⟨rfl, fresh⟩
    · obtain ⟨t, there, rfl, alive⟩ := live id rfl
      have held : 0 < m.holders .shared t.id :=
        owned.owners t there alive .shared (fits t there rfl)
      have owners := List.any_eq_true.mpr (holders_pos.mp held)
      rw [if_pos ⟨rfl, owners⟩]
      refine owned.retain (fun u member same => ?_) (Nat.add_pos_left held _)
      obtain rfl := owned.sound.eq_of_id member there same
      exact ⟨alive, fits u member rfl⟩
    · have unheld : ¬ m.blocks.any (·.sharesOwnershipOf id) := by
        intro owners
        obtain ⟨b, member, shares⟩ := List.any_eq_true.mp owners
        exact fresh id rfl b member (Block.target?_of_holds shares)
      rw [if_neg fun both => unheld both.2]
      exact owned

/-- A shared pointer that is aimed elsewhere leaves one target and owns the other. -/
theorem reaimShared (owned : m.Owned loose) {pointer : BlockId} {b : Block} {p : Pointer}
    (held : m.LivePointer pointer b p) (owner : p.discipline = .shared) {target : Option BlockId}
    (moved : p.target ≠ target)
    (supply : loose = [] ∨ loose = target.toList ∧ ∀ id, target = some id → m.Untargeted id)
    (live : ∀ id, target = some id → m.HasLive id)
    (fits : m.Fits .shared target) : (m.reaim b p target).Owned [] := by
  have blocks := reaim_blocks owned.sound held moved
  rw [owner] at blocks
  obtain ⟨member, _⟩ := block?_some held.found
  have old_fits : m.Fits .shared p.target := owned.matched .shared b member p held.holds owner
  have dropped := owned.drop held
  have left := dropped.leaveTarget owner (old_fits.aim pointer none)
  have alive : ∀ id, target = some id → ((m.update pointer (·.aim none)).leaveTarget p).HasLive id :=
    fun id aimed => ((live id aimed).aim none).leaveTarget (aimed ▸ moved)
  have new_fits := (fits.aim pointer none).leaveTarget p
  have still_supply : loose = [] ∨ loose = target.toList ∧ ∀ id, target = some id →
      ((m.update pointer (·.aim none)).leaveTarget p).Untargeted id :=
    supply.imp_right fun ⟨made, fresh⟩ => ⟨made,
      fun id aimed => ((fresh id aimed).null pointer).leaveTarget p⟩
  have entered := left.enterTarget still_supply alive new_fits
  obtain ⟨c, outside⟩ := (held.aim none).leaveTarget dropped.sound rfl p
  obtain ⟨c, inside⟩ := outside.enterTarget .shared target
  rw [← List.append_nil target.toList] at entered
  have taken :=
    entered.take inside rfl (fun id aimed => (alive id aimed).enterTarget .shared target)
    (owner ▸ new_fits.enterTarget .shared target)
  exact taken.congr blocks (by simp)

section Assignment

variable {pointer : BlockId} {b : Block} {p : Pointer} {target : Option BlockId}
  (held : m.LivePointer pointer b p)
  (done : m.assignPointer pointer target = .ok next)

include held done

theorem of_assignPointer :
    (∀ id, target = some id → m.HasLive id) ∧
      next = if p.target = target then m else m.reaim b p target := by
  obtain ⟨c, q, other, live, rfl⟩ := assignPointer_eq_ok.mp done
  obtain rfl := Option.some.inj (held.found.symm.trans other.found)
  obtain rfl := Option.some.inj (held.holds.symm.trans other.holds)
  refine ⟨fun id aimed => ?_, rfl⟩
  obtain ⟨t, found, alive⟩ := live id aimed
  exact hasLive_of_block? found alive

theorem assignRaw (owned : m.Owned loose) (owner : p.discipline = .raw)
    (fits : m.Fits .raw target) : next.Owned loose := by
  obtain ⟨live, rfl⟩ := of_assignPointer held done
  split
  · exact owned
  · have aimed := owned.aimRaw held owner live fits
    rw [← (block?_some held.found).2] at aimed
    exact aimed.congr (reaim_blocks_of_not_shared (owner ▸ by decide) target) (reaim_nextId ..)

/-- A null unique pointer takes what the operation owns. -/
theorem assignUnique (owned : m.Owned (target.toList ++ loose)) (owner : p.discipline = .unique)
    (null : p.target = none) (fits : m.Fits .unique target) : next.Owned loose := by
  obtain ⟨live, rfl⟩ := of_assignPointer held done
  split
  · rename_i same
    rw [← same, null] at owned
    exact owned
  · have taken := owned.take held null live (owner ▸ fits)
    rw [← (block?_some held.found).2] at taken
    exact taken.congr (reaim_blocks_of_not_shared (owner ▸ by decide) target) (reaim_nextId ..)

/-- A shared pointer joins the owners of its target, or becomes the first owner of what the
operation has made. -/
theorem assignShared (owned : m.Owned loose) (owner : p.discipline = .shared)
    (supply : loose = [] ∨ loose = target.toList ∧ ∀ id, target = some id → m.Untargeted id)
    (fits : m.Fits .shared target) : next.Owned [] := by
  obtain ⟨live, rfl⟩ := of_assignPointer held done
  split
  · rename_i same
    rcases supply with rfl | ⟨rfl, fresh⟩
    · exact owned
    · cases aimed : target with
      | none =>
        rw [aimed] at owned
        exact owned
      | some id =>
        have pointed := (Block.target?_of_pointer? held.holds).trans (same.trans aimed)
        exact absurd pointed (fresh id aimed b (block?_some held.found).1)
  · rename_i moved
    exact owned.reaimShared held owner moved supply live fits

end Assignment

theorem pushCopy (owned : m.Owned []) {source : BlockId} {b : Block} {p : Pointer}
    (held : m.LivePointer source b p) (owner : p.discipline = .shared) (name : String) :
    (m.pushCopy b p name).Owned [] := by
  cases aimed : p.target with
  | none =>
    obtain ⟨c, pushed, stack, _⟩ := m.pushCopy_pushes b aimed name
    exact owned.pushesStack pushed stack
  | some id =>
    obtain ⟨c, blocks, number, live, stack, holds⟩ := pushCopy_blocks m b aimed name
    have member := (block?_some held.found).1
    have shares : b.holds .shared id := Block.holds_iff.mpr ⟨held.live, p, held.holds, owner, aimed⟩
    obtain ⟨t, there, rfl, alive⟩ :=
      owned.sound.targetsLive b member id (Block.target?_of_holds shares)
    have heap := owned.matched .shared b member p held.holds owner t there aimed
    have retained : (m.retain t.id).Owned [t.id] := by
      refine owned.retain (fun u known same => ?_)
        (Nat.add_pos_left (holders_pos.mpr ⟨b, member, shares⟩) _)
      obtain rfl := owned.sound.eq_of_id known there same
      exact ⟨alive, heap⟩
    have points : c.target? = some t.id := (Block.target?_of_pointer? holds).trans aimed
    have matched (d : Discipline) : (m.pushCopy b p name).Matched d := by
      refine (retained.matched d).push retained.sound blocks number (fun x other => ?_)
        fun q pointer kind => ?_
      · exact Option.some.inj (points.symm.trans other) ▸ HasLive.countOwners ⟨t, there, rfl, alive⟩ rfl
      · obtain rfl := Option.some.inj (holds.symm.trans pointer)
        exact Fits.countOwners (owned.matched d b member p held.holds kind) rfl
    refine ⟨owned.counted.pushCopy held owner name, matched, fun u known lives d kind => ?_⟩
    rw [blocks] at known
    rcases List.mem_append.mp known with old | new
    · have before := retained.owners u old lives d kind
      have pushed : c ∈ (m.pushCopy b p name).blocks :=
        blocks ▸ List.mem_append_right _ (List.mem_singleton_self c)
      have counts := Block.count_target_of_fits live holds
        (matched p.discipline c pushed p holds rfl u (blocks ▸ known)) kind
      rw [holders_push blocks, counts, aimed]
      simpa using before
    · obtain rfl := List.mem_singleton.mp new
      rw [Block.isHeapOf, stack] at kind
      contradiction

/-- A move keeps one owner on every block. The giver lets go before the taker is aimed, which makes no difference to
the blocks. -/
theorem moveUnique (owned : m.Owned []) {source dest : BlockId}
    (done : m.moveUnique source dest = .ok next) : next.Owned [] := by
  obtain ⟨different, freed, giver, p, taker, q, shape, giving, owner, taking, owning, target,
    blocks, nextId⟩ :=
    (owned.matched .unique).moveUnique owned.sound done
  have left : freed.Owned [] := by
    rcases shape with rfl | ⟨t, there, heap, rfl⟩
    · exact owned
    · exact owned.freeHeap there (Block.uncounted_of_isHeapOf heap (by decide)).1 _
  have member := (block?_some giving.found).1
  have live : ∀ id, p.target = some id → freed.HasLive id := fun id aimed =>
    left.sound.targetsLive giver member id ((Block.target?_of_pointer? giving.holds).trans aimed)
  have fits := left.matched .unique giver member p giving.holds owner
  have dropped := left.drop giving
  have still := taking.aimOther (Ne.symm different) none
  have null : q.target = none := by
    rcases target with null | same
    · exact null
    · rw [same]
      by_contra held
      obtain ⟨id, aimed⟩ := Option.ne_none_iff_exists'.mp held
      obtain ⟨t, there, rfl, alive⟩ := (live id aimed).aim none
      have single := dropped.owners t there alive .unique (fits.aim source none t there aimed)
      rw [aimed] at single
      have shares : taker.holds .unique t.id :=
        Block.holds_iff.mpr ⟨still.live, q, still.holds, owning, same.trans aimed⟩
      have positive := holders_pos.mpr ⟨taker, (block?_some still.found).1, shares⟩
      simp [Discipline.Allows] at single
      omega
  have taken := dropped.take still null (fun id aimed => (live id aimed).aim none)
    (owning ▸ fits.aim source none)
  have swapped : ((freed.update source (·.aim none)).update dest (·.aim p.target)).blocks =
      ((freed.update dest (·.aim p.target)).update source (·.aim none)).blocks :=
    update_comm (by simp) (by simp) fun c first second => absurd (first.symm.trans second) different
  exact taken.congr (blocks.trans swapped.symm) nextId

/-- What leaves its scope frees what it owned alone, and leaves the rest to the other owners. -/
theorem leaveScope (owned : m.Owned []) {b : Block} (member : b ∈ m.blocks) (live : b.live)
    (stack : b.isStack) : (m.leaveScope b).memory.Owned [] := by
  have sound := owned.sound
  have popped {rest : List BlockId} (balance : ∀ t ∈ m.blocks, ∀ d, d ≠ .raw → t.isHeapOf d →
      (b.holds d t.id).toNat = rest.count t.id) : (m.free b "goes out of scope").Owned rest := by
    refine owned.bury member (free_blocks ..) rfl fun t there _ d raw heap => ?_
    rw [balance t there d raw heap, List.count_nil, Nat.zero_add]
  have dead := not_hasLive_free m b "goes out of scope"
  cases holds : b.pointer? with
  | none =>
    rw [leaveScope_of_plain holds]
    exact popped fun t _ d _ _ => by rw [Block.holds_of_plain holds]; rfl
  | some p =>
    have owed := popped fun t there d _ heap => owned.count_target member live holds there heap
    cases aimed : p.target with
    | none =>
      rw [leaveScope_of_unowned holds (.inl aimed)]
      rwa [aimed] at owed
    | some id =>
      rw [aimed] at owed
      cases kind : p.discipline with
      | raw =>
        rw [leaveScope_of_unowned holds (.inr kind)]
        refine popped fun t _ d raw _ => ?_
        rw [Block.holds_of_other holds fun same => raw (same.symm.trans kind)]
        rfl
      | shared =>
        rw [leaveScope_of_shared holds kind aimed]
        have fits : m.Fits .shared (some id) := aimed ▸ owned.matched .shared b member p holds kind
        have shared : (m.free b "goes out of scope").Fits .shared (some id) :=
          fits.map (free_blocks ..) (by simp) (by simp)
        have released := owed.release fun t there same => shared t there (congrArg some same.symm)
        exact released.aimDead fun alive => dead (alive.of_shrinks (.release ..))
      | unique =>
        obtain ⟨t, there, rfl, heap, after⟩ :=
          leaveScope_of_unique sound (owned.matched .unique) member stack holds kind aimed
        rw [after]
        have freed := owed.freeOwned there (Block.uncounted_of_isHeapOf heap (by decide)).1 "freed"
        exact freed.aimDead fun alive => dead (alive.of_shrinks (.free ..))

theorem endScope (owned : m.Owned []) : (m.perform .endScope).2.Owned [] :=
  perform_endScope_keeps (Owned · []) owned fun _ => owned.leaveScope

theorem reportLeaks (owned : m.Owned loose) : m.reportLeaks.Owned loose :=
  owned.congr (reportLeaks_keeps blocks (fun _ _ _ _ => rfl) m)
    (reportLeaks_keeps nextId (fun _ _ _ _ => rfl) m)

theorem tick (owned : m.Owned []) : m.tick.Owned [] := by
  have heap (d : Discipline) (b : Block) : b.age.isHeapOf d = b.isHeapOf d :=
    Block.isHeapOf_congr (Block.age_storage b) d
  have matched (d : Discipline) : m.tick.Matched d :=
    (owned.matched d).of_content (f := Block.age) rfl (by simp) (heap d) (by simp)
  refine owned_map owned.counted.tick matched
    (f := Block.age) rfl (by simp) heap fun t there live d _ kind => ?_
  rw [holders_map (m := m) (f := Block.age) rfl (by simp) (by simp)]
  exact owned.owners t there (by simpa using live) d kind

end Owned

end MemoryTrace.Memory
