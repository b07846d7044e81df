import MemoryTrace.Proofs.Memory.Aiming

namespace MemoryTrace

namespace Block

/-- What a block was made as. Left out are whether it lives, for how long it has, how many owners it counts and where
it points, which is all that ever changes. -/
def form (b : Block) : Block := { (b.countOwners fun _ => 0).aim none with live := true, lifetime := 0 }

@[simp] theorem form_aim (b : Block) (target : Option BlockId) : (b.aim target).form = b.form := by
  rw [form, aim_countOwners, aim_aim, form]

@[simp] theorem form_countOwners (f : Nat → Nat) (b : Block) : (b.countOwners f).form = b.form := by
  rw [form, countOwners_countOwners, form]
  rfl

@[simp] theorem form_forget (id : BlockId) (b : Block) : (b.forget id).form = b.form := by
  unfold forget
  split <;> simp

@[simp] theorem form_die (b : Block) : b.die.form = b.form := by
  obtain ⟨_, _, _, _, storage, content, _, _⟩ := b
  cases storage <;> cases content <;> rfl

@[simp] theorem form_bury (id : BlockId) (b : Block) : (b.bury id).form = b.form := by
  unfold bury
  split <;> simp

@[simp] theorem form_age (b : Block) : b.age.form = b.form := by
  obtain ⟨_, _, _, _, storage, content, live, _⟩ := b
  cases storage <;> cases content <;> cases live <;> rfl

/-- A block of the same form has the same number. -/
theorem id_of_form {b c : Block} (same : c.form = b.form) : c.id = b.id := by
  have kept (b : Block) : b.form.id = b.id := by simp [form]
  rw [← kept c, same, kept b]

/-- What can be told from the form is the same for blocks of one form. -/
theorem of_form {α : Type} {g : Block → α} (kept : ∀ b, g b.form = g b) {b c : Block} (same : c.form = b.form) :
    g c = g b := by
  rw [← kept, same, kept]

@[simp] theorem form_size (b : Block) : b.form.size = b.size := by
  obtain ⟨_, _, _, _, storage, content, _, _⟩ := b
  cases storage <;> cases content <;> rfl

@[simp] theorem form_address (b : Block) : b.form.address = b.address := by
  obtain ⟨_, _, _, _, storage, content, _, _⟩ := b
  cases storage <;> cases content <;> rfl

@[simp] theorem form_isStack (b : Block) : b.form.isStack = b.isStack := by
  obtain ⟨_, _, _, _, storage, content, _, _⟩ := b
  cases storage <;> cases content <;> rfl

@[simp] theorem form_layout? (b : Block) : b.form.layout? = b.layout? := by
  obtain ⟨_, _, _, _, storage, content, _, _⟩ := b
  cases storage <;> cases content <;> rfl

end Block

namespace Memory

/-- From `m` to `next` the block `b` has become `c`. Nothing wakes the dead, and if `b` was dead already it may have
lost its target, where that has died in between, but it is the same in everything else. -/
structure Carries (m next : Memory) (b c : Block) : Prop where
  form : c.form = b.form
  live : c.live → b.live
  frozen : b.live = false → c = b ∨ c = b.aim none ∧ ∃ id, b.target? = some id ∧ m.HasLive id ∧ ¬ next.HasLive id

/-- The blocks of `next` are those that `m` carries over, with at most one behind them. -/
def Continues (m next : Memory) : Prop :=
  ∃ kept new, next.blocks = kept ++ new ∧ new.length ≤ 1 ∧ List.Forall₂ (m.Carries next) m.blocks kept

/-- The blocks of `next` are those that `m` carries over. -/
def CarriesAll (m next : Memory) : Prop :=
  ∃ f : Block → Block, next.blocks = m.blocks.map f ∧ ∀ b ∈ m.blocks, m.Carries next b (f b)

namespace CarriesAll

variable {m mid next : Memory}

theorem refl (m : Memory) : m.CarriesAll m :=
  ⟨fun b => b, (List.map_id' _).symm, fun _ _ => ⟨rfl, fun live => live, fun _ => .inl rfl⟩⟩

/-- What is live now was live in the beginning. -/
theorem hasLive (carried : m.CarriesAll mid) {id : BlockId} (alive : mid.HasLive id) : m.HasLive id := by
  obtain ⟨f, blocks, carries⟩ := carried
  obtain ⟨c, there, same, live⟩ := alive
  rw [blocks] at there
  obtain ⟨b, member, rfl⟩ := List.mem_map.mp there
  exact ⟨b, member, (Block.id_of_form (carries b member).form).symm.trans same, (carries b member).live live⟩

variable (sound : m.Sound) (carried : m.CarriesAll mid)

include sound carried

/-- One more change in place. Whoever was dead from the start does not mind, but for a target that dies now. -/
theorem map {g : Block → Block} (blocks : next.blocks = mid.blocks.map g) (form : ∀ c, (g c).form = c.form)
    (lives : ∀ c, (g c).live → c.live)
    (rests : ∀ c, ¬ m.HasLive c.id → g c = c ∨ g c = c.aim none ∧
      ∃ id, c.target? = some id ∧ mid.HasLive id ∧ ¬ next.HasLive id) : m.CarriesAll next := by
  have still_gone {id : BlockId} (gone : ¬ mid.HasLive id) : ¬ next.HasLive id := by
    rintro ⟨c, there, same, live⟩
    rw [blocks] at there
    obtain ⟨b, member, rfl⟩ := List.mem_map.mp there
    exact gone ⟨b, member, (Block.id_of_form (form b)).symm.trans same, lives b live⟩
  have ⟨f, before, carries⟩ := carried
  refine ⟨g ∘ f, by rw [blocks, before, List.map_map], fun b member => ?_⟩
  have first := carries b member
  refine ⟨(form _).trans first.form, fun live => first.live (lives _ live), fun dead => ?_⟩
  have gone : ¬ m.HasLive (f b).id := by
    rw [Block.id_of_form first.form]
    rintro ⟨c, there, same, live⟩
    rw [sound.eq_of_id there member same, dead] at live
    contradiction
  rw [Function.comp_apply]
  rcases first.frozen dead with same | ⟨null, id, aimed, alive, died⟩
  · have second := rests (f b) gone
    rw [same] at second ⊢
    rcases second with unchanged | ⟨null, id, aimed, alive, died⟩
    · exact .inl unchanged
    · exact .inr ⟨null, id, aimed, carried.hasLive alive, died⟩
  · rcases rests (f b) gone with unchanged | ⟨_, other, aimed', _⟩
    · exact .inr ⟨unchanged.trans null, id, aimed, alive, still_gone died⟩
    · rw [null] at aimed'
      have null_aimed := Block.target?_aim aimed'
      contradiction

theorem congr (blocks : next.blocks = mid.blocks) : m.CarriesAll next :=
  carried.map sound (g := fun c => c) (by rw [blocks, List.map_id']) (fun _ => rfl) (fun _ live => live)
    fun _ _ => .inl rfl

/-- One block that was live in the beginning may change. -/
theorem update {id : BlockId} (alive : m.HasLive id) {g : Block → Block} (form : ∀ c, (g c).form = c.form)
    (lives : ∀ c, (g c).live → c.live) (blocks : next.blocks = (mid.update id g).blocks) : m.CarriesAll next := by
  refine carried.map sound (blocks.trans (update_blocks mid id g)) (fun c => ?_) (fun c => ?_) fun c gone => .inl ?_
  · split
    · exact form c
    · rfl
  · split
    · exact lives c
    · exact fun live => live
  · exact if_neg fun same : c.id = id => gone (same ▸ alive)

theorem aim {pointer : BlockId} (alive : m.HasLive pointer) (target : Option BlockId) :
    m.CarriesAll (mid.update pointer (·.aim target)) :=
  carried.update sound alive (by simp) (by simp) rfl

theorem countOwners {id : BlockId} (alive : m.HasLive id) {f : Nat → Nat}
    (blocks : next.blocks = (mid.update id (Block.countOwners f)).blocks) : m.CarriesAll next :=
  carried.update sound alive (by simp) (by simp) blocks

/-- Only here do the dead forget, and only what dies. -/
theorem bury {id : BlockId} (alive : mid.HasLive id) (blocks : next.blocks = mid.blocks.map (Block.bury id)) :
    m.CarriesAll next := by
  refine carried.map sound blocks (by simp) (fun c => (c.becomes_bury id).live) fun c gone => ?_
  have other : c.id ≠ id := fun same => gone (same ▸ carried.hasLive alive)
  rw [Block.bury, if_neg other, Block.forget]
  split
  · rename_i aimed
    exact .inr ⟨rfl, id, aimed, alive, not_hasLive_bury blocks⟩
  · exact .inl rfl

theorem free {b : Block} (alive : mid.HasLive b.id) (reason : String) : m.CarriesAll (mid.free b reason) :=
  carried.bury sound alive (free_blocks mid b reason)

theorem release (id : BlockId) : m.CarriesAll (mid.release id) := by
  cases mid.released id with
  | kept same _ => rwa [same]
  | counted found live _ after =>
    exact carried.countOwners sound (carried.hasLive (hasLive_of_block? found live)) after
  | freed found live _ after => exact carried.bury sound (hasLive_of_block? found live) after

theorem deallocate {id : BlockId} (done : mid.deallocate id = .ok next) : m.CarriesAll next := by
  obtain ⟨b, found, live, rfl⟩ := deallocate_eq_ok.mp done
  split
  · exact carried.release sound id
  · refine carried.free sound ?_ _
    rw [(block?_some found).2]
    exact hasLive_of_block? found live

theorem deallocateIfAny {target : Option BlockId} (done : mid.deallocateIfAny target = .ok next) :
    m.CarriesAll next := by
  cases target with
  | none => exact Except.ok.inj done ▸ carried
  | some id => exact carried.deallocate sound done

theorem leaveTarget (p : Pointer) : m.CarriesAll (mid.leaveTarget p) := by
  unfold Memory.leaveTarget
  split
  · exact carried.release sound _
  · exact carried

omit carried

theorem assignPointer {pointer : BlockId} {target : Option BlockId} (done : m.assignPointer pointer target = .ok next) :
    m.CarriesAll next := by
  obtain ⟨b, p, held, live, rfl⟩ := assignPointer_eq_ok.mp done
  have alive : m.HasLive b.id := (block?_some held.found).2 ▸ hasLive_of_block? held.found held.live
  have aimed := ((refl m).leaveTarget sound p).aim sound alive target
  split
  · exact refl m
  · unfold reaim
    dsimp only
    split
    · exact aimed.congr sound rfl
    · obtain ⟨t, found, target_live⟩ := live _ rfl
      split
      · exact aimed.countOwners sound (hasLive_of_block? found target_live) rfl
      · exact aimed.congr sound rfl

theorem moveUnique {source dest : BlockId} (done : m.moveUnique source dest = .ok next) : m.CarriesAll next := by
  obtain ⟨_, _, p, _, _, freed, given, _, taken, _, released, rfl⟩ := moveUnique_eq_ok.mp done
  have left := (refl m).deallocateIfAny sound released
  have handed := left.aim sound (hasLive_of_block? taken.found taken.live) p.target
  exact (handed.aim sound (hasLive_of_block? given.found given.live) none).congr sound rfl

theorem leaveScope {b : Block} (alive : m.HasLive b.id) : m.CarriesAll (m.leaveScope b).memory := by
  have popped := (refl m).free sound alive "goes out of scope"
  unfold Memory.leaveScope
  dsimp only
  split
  · split
    · rename_i freed done
      exact (popped.deallocate sound done).aim sound alive none
    · exact popped.aim sound alive none
  · exact (popped.release sound _).aim sound alive none
  · exact popped

omit sound

theorem tick (m : Memory) : m.CarriesAll m.tick := by
  refine ⟨Block.age, rfl, fun b _ => ⟨by simp, by simp, fun dead => .inl ?_⟩⟩
  rw [Block.age, if_neg (by simp [dead])]

end CarriesAll

namespace Continues

variable {m mid next : Memory}

/-- Carrying all blocks over goes on without a new one. -/
theorem of_carriesAll (carried : m.CarriesAll next) : m.Continues next := by
  obtain ⟨f, blocks, carries⟩ := carried
  refine ⟨m.blocks.map f, [], by rw [blocks, List.append_nil], Nat.zero_le _, ?_⟩
  exact List.forall₂_map_right_iff.mpr (List.forall₂_same.mpr carries)

/-- A new block, which has a new number. -/
theorem push (sound : m.Sound) (carried : m.CarriesAll mid) {b : Block} (blocks : next.blocks = mid.blocks ++ [b])
    (id : b.id = m.nextId) : m.Continues next := by
  obtain ⟨f, before, carries⟩ := carried
  refine ⟨m.blocks.map f, [b], by rw [blocks, before], Nat.le_refl _, ?_⟩
  refine List.forall₂_map_right_iff.mpr (List.forall₂_same.mpr fun c member => ?_)
  have carried := carries c member
  refine ⟨carried.form, carried.live, fun dead => (carried.frozen dead).imp_right ?_⟩
  rintro ⟨null, target, aimed, alive, died⟩
  refine ⟨null, target, aimed, alive, ?_⟩
  rintro ⟨t, there, same, live⟩
  rw [blocks] at there
  rcases List.mem_append.mp there with old | new
  · exact died ⟨t, old, same, live⟩
  · obtain ⟨u, was, rfl, _⟩ := alive
    rw [List.mem_singleton.mp new, id] at same
    exact absurd (sound.id_lt_next was) (same ▸ Nat.lt_irrefl _)

/-- The copy is the one block that comes behind. -/
theorem pushCopy (sound : m.Sound) {source : BlockId} {b : Block} {p : Pointer} (held : m.LivePointer source b p)
    (name : String) : m.Continues (m.pushCopy b p name) := by
  cases aimed : p.target with
  | none =>
    unfold Memory.pushCopy
    rw [aimed]
    exact push sound (.refl m) rfl rfl
  | some id =>
    have alive := sound.targetsLive b (block?_some held.found).1 id
      ((Block.target?_of_pointer? held.holds).trans aimed)
    obtain ⟨c, blocks, number, _⟩ := pushCopy_blocks m b aimed name
    exact push sound ((CarriesAll.refl m).countOwners sound alive rfl) blocks number

/-- An operation adds at most one block, and of the blocks that are there it changes little. In those that were dead
before it changes next to nothing. -/
theorem perform (sound : m.Sound) {operation : Operation} (goes_on : operation ≠ .reset) :
    m.Continues (m.perform operation).2 := by
  have stays : m.Continues m := of_carriesAll (.refl m)
  cases operation with
  | createVariable | createPointer | createObject | allocate | allocateObject =>
    exact push sound (.refl m) rfl rfl
  | deallocate id =>
    exact settle_keeps m.Continues stays fun _ done => of_carriesAll ((CarriesAll.refl m).deallocate sound done)
  | assignPointer pointer target =>
    exact settle_keeps m.Continues stays fun _ done => of_carriesAll (.assignPointer sound done)
  | copyShared source name =>
    exact perform_copyShared_keeps m.Continues stays fun _ _ held _ => pushCopy sound held name
  | moveUnique source dest =>
    exact settle_keeps m.Continues stays fun _ done => of_carriesAll (.moveUnique sound done)
  | endScope =>
    exact perform_endScope_keeps m.Continues stays fun b member live _ =>
      of_carriesAll (.leaveScope sound ⟨b, member, rfl, live⟩)
  | reportLeaks =>
    exact of_carriesAll ((CarriesAll.refl m).congr sound (reportLeaks_keeps blocks (fun _ _ _ _ => rfl) m))
  | tick => exact of_carriesAll (.tick m)
  | reset => contradiction

end Continues

/-- Whatever is done to memory, short of a reset, the blocks that are there stay in their places, and at most one comes
behind them. What a block was made as never changes, and no block comes back to life. One that was dead already is the
same afterwards, or else it pointed to a block that was freed just now and has become null. -/
theorem freed_blocks_stay_frozen {m : Memory} (reach : m.Reachable) {operation : Operation}
    (goes_on : operation ≠ .reset) :
    ∃ kept new, (m.perform operation).2.blocks = kept ++ new ∧ new.length ≤ 1 ∧
      List.Forall₂ (fun b c : Block => c.form = b.form ∧ (c.live → b.live) ∧
        (b.live = false → c = b ∨ c = b.aim none ∧ ∃ id, b.target? = some id ∧ m.HasLive id ∧
          ¬ (m.perform operation).2.HasLive id)) m.blocks kept := by
  obtain ⟨kept, new, blocks, few, carried⟩ := Continues.perform reach.sound goes_on
  exact ⟨kept, new, blocks, few, carried.imp fun _ _ carries => ⟨carries.form, carries.live, carries.frozen⟩⟩

/-- A dead pointer still points to a block on the heap. When that is freed the pointer becomes null, and nothing else
of it changes. -/
theorem freed_blocks_stay_frozen_of_dead_pointer :
    ∃ (m : Memory) (b t c d : Block), m.Reachable ∧ m.blocks = [b, t] ∧ b.live = false ∧ b.target? = some t.id ∧
      (m.perform (.deallocate 2)).2.blocks = [c, d] ∧ c = b.aim none ∧ c ≠ b := by
  let m := (withCapacity 8).run
    [.createPointer "p" .raw none, .allocate "*p" 4 .raw, .assignPointer 1 (some 2), .endScope]
  have reach : m.Reachable := Reachable.run (.fresh 8) _
  obtain ⟨b, t, before, dead, aimed⟩ : ∃ b t, m.blocks = [b, t] ∧ b.live = false ∧ b.target? = some t.id :=
    ⟨_, _, rfl, rfl, rfl⟩
  obtain ⟨c, d, after, null⟩ : ∃ c d, (m.perform (.deallocate 2)).2.blocks = [c, d] ∧ c.target? = none :=
    ⟨_, _, rfl, rfl⟩
  have changed : c ≠ b := by
    rintro rfl
    rw [null] at aimed
    contradiction
  have goes_on : Operation.deallocate 2 ≠ .reset := nofun
  obtain ⟨kept, new, blocks, _, carried⟩ := freed_blocks_stay_frozen reach goes_on
  rw [before] at carried
  cases carried with
  | cons first _ =>
    rw [after] at blocks
    obtain ⟨rfl, _⟩ := List.cons.inj blocks
    obtain ⟨_, _, frozen⟩ := first
    exact ⟨m, b, t, c, d, reach, before, dead, aimed, after, ((frozen dead).resolve_left changed).1, changed⟩

end Memory

end MemoryTrace
