import Mathlib.Logic.Relation
import MemoryTrace.Proofs.Memory.Frozen

namespace MemoryTrace

/-- An object takes the room that its layout asks for, and a pointer that of any pointer. -/
def Content.Takes (size : Nat) : Content → Prop
  | .value => True
  | .object layout => size = layout.size
  | .pointer _ => size = pointerSize

namespace Memory

variable {m next : Memory}

/-- One step. A pointer is only aimed at live blocks, and only live blocks are freed and gain or lose owners. They keep
at least one of them: the last owner to go takes the block along in the same step. -/
inductive Primitive (m : Memory) : Memory → Prop
  | pushStack (name : String) (size : Nat) (content : Content) (fits : content.Takes size)
      (live : ∀ p, content = .pointer p → ∀ id, p.target = some id → m.HasLive id) :
      Primitive m (m.pushStack name size content)
  | pushHeap (name : String) (size : Nat) (discipline : Discipline) (content : Content) (fits : content.Takes size)
      (plain : ∀ p, content ≠ .pointer p) : Primitive m (m.pushHeap name size discipline content)
  | free {b : Block} (member : b ∈ m.blocks) (live : b.live) (reason : String) : Primitive m (m.free b reason)
  | aim (pointer : BlockId) (target : Option BlockId) (live : ∀ id, target = some id → m.HasLive id) :
      Primitive m (m.update pointer (·.aim target))
  | countOwners {id : BlockId} (alive : m.HasLive id) {f : Nat → Nat} (owned : ∀ owners, 0 < f owners) :
      Primitive m (m.update id (Block.countOwners f))
  | record (kind : EventKind) (id : BlockId) (description : String) : Primitive m (m.record kind id description)
  | tick : Primitive m m.tick

theorem Primitive.sound (step : m.Primitive next) (sound : m.Sound) : next.Sound := by
  cases step with
  | pushStack name size content _ live => exact sound.pushStack content live
  | pushHeap name size discipline content _ plain => exact sound.pushHeap content plain
  | free => exact sound.free _ _
  | aim pointer target live => exact sound.aim pointer live
  | countOwners => exact sound.countOwners rfl rfl
  | record => exact sound.congr rfl rfl
  | tick => exact sound.tick

/-- What a step does to the blocks. One comes behind them, or else they are changed in place, none of them comes back to
life, and the heap grows no further. -/
inductive Effect (m next : Memory) : Prop
  | pushStack (name : String) (size : Nat) (content : Content) (pushed : next = m.pushStack name size content)
  | pushHeap (name : String) (size : Nat) (discipline : Discipline) (content : Content)
      (pushed : next = m.pushHeap name size discipline content)
  | inPlace {f : Block → Block} (blocks : next.blocks = m.blocks.map f) (form : ∀ b, (f b).form = b.form)
      (lives : ∀ b, (f b).live → b.live) (heap : next.nextHeapAddress = m.nextHeapAddress)

/-- A change of one block that wakes no block is a change in place. -/
theorem Effect.update (m : Memory) (id : BlockId) {f : Block → Block} (form : ∀ b, (f b).form = b.form)
    (lives : ∀ b, (f b).live → b.live) : m.Effect (m.update id f) := by
  refine .inPlace (update_blocks m id f) (fun b => ?_) (fun b => ?_) rfl
  · split
    · exact form b
    · rfl
  · split
    · exact lives b
    · exact fun live => live

/-- Every step either puts one block behind the others or changes blocks in place. -/
theorem Primitive.effect (step : m.Primitive next) : m.Effect next := by
  cases step with
  | pushStack name size content => exact .pushStack name size content rfl
  | pushHeap name size discipline content => exact .pushHeap name size discipline content rfl
  | @free b _ _ reason => exact .inPlace (free_blocks m b reason) (Block.form_bury b.id) (by simp_all) rfl
  | aim pointer target => exact .update m pointer (by simp) (by simp)
  | countOwners => exact .update m _ (by simp) (by simp)
  | record => exact .inPlace (List.map_id' m.blocks).symm (fun _ => rfl) (fun _ live => live) rfl
  | tick => exact .inPlace rfl Block.form_age (by simp) rfl

/-- Any number of steps, one after the other. -/
abbrev Primitives : Memory → Memory → Prop := Relation.ReflTransGen Primitive

/-- What a block counts when it is freed makes no difference. -/
theorem free_uncounted (m : Memory) (b : Block) (kind : EventKind) (description reason : String) :
    ((m.update b.id (Block.countOwners fun _ => 0)).record kind b.id description).free b reason =
      (m.record kind b.id description).free b reason := by
  have blocks := bury_update_countOwners m b.id
  have counted := free_blocks ((m.update b.id (Block.countOwners fun _ => 0)).record kind b.id description) b reason
  have plain := free_blocks (m.record kind b.id description) b reason
  rw [record_blocks, blocks] at counted
  unfold free at counted plain ⊢
  dsimp only at counted plain ⊢
  rw [counted, plain]
  rfl

namespace Primitives

theorem release (m : Memory) (id : BlockId) : m.Primitives (m.release id) := by
  unfold Memory.release
  split
  · exact .refl
  · rename_i b found
    split
    · rename_i owners live _
      obtain ⟨member, rfl⟩ := block?_some found
      dsimp only
      split
      · rename_i last
        rw [last, free_uncounted]
        refine .tail (.single (.record ..)) (.free ?_ live _)
        exact member
      · rename_i more
        exact .tail (.single (.countOwners ⟨b, member, rfl, live⟩ fun _ => Nat.pos_of_ne_zero more)) (.record ..)
    · exact .refl

/-- Deallocating is one step, whether it frees the block or only takes an owner. -/
theorem deallocate {id : BlockId} (done : m.deallocate id = .ok next) : m.Primitives next := by
  obtain ⟨b, found, live, rfl⟩ := deallocate_eq_ok.mp done
  split
  · exact release m id
  · exact .single (.free (block?_some found).1 live _)

theorem deallocateIfAny {target : Option BlockId} (done : m.deallocateIfAny target = .ok next) :
    m.Primitives next := by
  cases target with
  | none => exact Except.ok.inj done ▸ .refl
  | some id => exact deallocate done

theorem retain {id : BlockId} (alive : m.HasLive id) : m.Primitives (m.retain id) :=
  .single (.countOwners alive fun owners => Nat.succ_pos owners)

/-- An assignment leaves the old target, enters the new one and aims the pointer, in steps. -/
theorem assignPointer {pointer : BlockId} {target : Option BlockId}
    (done : m.assignPointer pointer target = .ok next) : m.Primitives next := by
  obtain ⟨b, p, _, live, rfl⟩ := assignPointer_eq_ok.mp done
  split
  · exact .refl
  · rename_i moved
    have left : m.Primitives (m.leaveTarget p) := by
      unfold leaveTarget
      split
      · exact release ..
      · exact .refl
    have still (id : BlockId) (aimed : target = some id) : (m.leaveTarget p).HasLive id := by
      obtain ⟨t, found, alive⟩ := live id aimed
      exact (hasLive_of_block? found alive).leaveTarget (aimed ▸ moved)
    have aimed := left.tail (.aim b.id target still)
    unfold reaim
    dsimp only
    split
    · exact aimed.tail (.record ..)
    · split
      · exact (aimed.trans (retain ((still _ rfl).aim _))).tail (.record ..)
      · exact aimed.tail (.record ..)

/-- Leaving a scope frees the block, and then what it owned. -/
theorem leaveScope {b : Block} (member : b ∈ m.blocks) (live : b.live) : m.Primitives (m.leaveScope b).memory := by
  have popped : m.Primitives (m.free b "goes out of scope") := .single (.free member live _)
  unfold Memory.leaveScope
  dsimp only
  split
  · split
    · rename_i freed done
      exact (popped.trans (deallocate done)).tail (.aim b.id none nofun)
    · exact popped.tail (.aim b.id none nofun)
  · exact (popped.trans (release ..)).tail (.aim b.id none nofun)
  · exact popped

theorem reportLeaks (m : Memory) : m.Primitives m.reportLeaks := by
  unfold Memory.reportLeaks
  induction m.leakedBlocks generalizing m with
  | nil => exact .refl
  | cons b rest ih => exact .head (.record ..) (ih _)

variable (sound : m.Sound)

include sound

/-- A move frees what the taker owned and then aims both pointers. -/
theorem moveUnique {source dest : BlockId} (done : m.moveUnique source dest = .ok next) : m.Primitives next := by
  obtain ⟨_, giver, p, _, q, freed, given, _, _, _, released, rfl⟩ := moveUnique_eq_ok.mp done
  have moved (id : BlockId) (aimed : p.target = some id) : freed.HasLive id := by
    have alive := sound.targetsLive giver (block?_some given.found).1 id
      ((Block.target?_of_pointer? given.holds).trans aimed)
    refine alive.deallocateIfAny released fun same => ?_
    simp [Option.filter_eq_some_iff, aimed] at same
  exact (((deallocateIfAny released).tail (.aim dest _ moved)).tail (.aim source none nofun)).tail (.record ..)

/-- A copy is pushed before its target gains the new owner. -/
theorem pushCopy {source : BlockId} {b : Block} {p : Pointer} (held : m.LivePointer source b p) (name : String) :
    m.Primitives (m.pushCopy b p name) := by
  have aimed_live (id : BlockId) (aimed : p.target = some id) : m.HasLive id :=
    sound.targetsLive b (block?_some held.found).1 id ((Block.target?_of_pointer? held.holds).trans aimed)
  have pushed : m.Primitives (m.pushStack name pointerSize (.pointer p)) := by
    refine .single (.pushStack _ _ _ rfl ?_)
    rintro _ ⟨⟩
    exact aimed_live
  unfold Memory.pushCopy
  dsimp only
  split
  · exact pushed.tail (.record ..)
  · rename_i id aimed
    obtain ⟨t, there, same, alive⟩ := aimed_live id aimed
    have kept : (m.pushStack name pointerSize (.pointer p)).HasLive id :=
      ⟨t, List.mem_append_left _ there, same, alive⟩
    exact (pushed.trans (retain kept)).tail (.record ..)

/-- Every operation but a reset is made of primitive steps. What each of these keeps, every run keeps. -/
theorem perform {operation : Operation} (goes_on : operation ≠ .reset) : m.Primitives (m.perform operation).2 := by
  cases operation with
  | createVariable name size => exact .tail (.single (.pushStack name size .value trivial nofun)) (.record ..)
  | createPointer =>
    refine .tail (.single (.pushStack _ _ (.pointer _) rfl ?_)) (.record ..)
    rintro _ ⟨⟩
    nofun
  | createObject _ layout => exact .tail (.single (.pushStack _ _ (.object layout) rfl nofun)) (.record ..)
  | allocate name size discipline =>
    exact .tail (.single (.pushHeap name size discipline .value trivial nofun)) (.record ..)
  | allocateObject _ layout => exact .tail (.single (.pushHeap _ _ _ (.object layout) rfl nofun)) (.record ..)
  | deallocate id => exact settle_keeps m.Primitives .refl fun _ => deallocate
  | assignPointer pointer target => exact settle_keeps m.Primitives .refl fun _ => assignPointer
  | copyShared source name =>
    exact perform_copyShared_keeps m.Primitives .refl fun _ _ held _ => pushCopy sound held name
  | moveUnique source dest => exact settle_keeps m.Primitives .refl fun _ => moveUnique sound
  | endScope => exact perform_endScope_keeps m.Primitives .refl fun b member live _ => leaveScope member live
  | reportLeaks => exact reportLeaks m
  | tick => exact .single .tick
  | reset => contradiction

end Primitives

/-- A reachable memory has what a fresh one has and steps keep. -/
theorem Reachable.holds {I : Memory → Prop} (fresh : ∀ capacity, I (withCapacity capacity))
    (kept : ∀ m next, m.Sound → m.Primitive next → I m → I next) (reach : m.Reachable) : I m := by
  induction reach with
  | fresh capacity => exact fresh capacity
  | @next m operation before _ ih =>
    by_cases again : operation = .reset
    · subst again
      exact fresh _
    · have ran := Primitives.perform before.sound again
      generalize (m.perform operation).2 = next at ran ⊢
      have both : next.Sound ∧ I next := by
        induction ran with
        | refl => exact ⟨before.sound, ih⟩
        | tail _ last through => exact ⟨last.sound through.1, kept _ _ through.1 last through.2⟩
      exact both.2

end Memory

end MemoryTrace
