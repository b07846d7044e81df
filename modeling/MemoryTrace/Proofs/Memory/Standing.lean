import MemoryTrace.Proofs.Memory.Aiming
import MemoryTrace.Proofs.Memory.Matched
import MemoryTrace.Proofs.Memory.Refusal

namespace MemoryTrace.Memory

variable {m next : Memory} {id : BlockId} {d : Discipline} {b : Block} {p : Pointer}

theorem LivePointer.hasPointer (held : m.LivePointer id b p) : m.HasPointer p.discipline id := ⟨b, p, held, rfl⟩

theorem HasPointer.hasLive (held : m.HasPointer d id) : m.HasLive id := by
  obtain ⟨b, p, held, _⟩ := held
  exact hasLive_of_block? held.found held.live

namespace Sound

variable (sound : m.Sound)

include sound

/-- A pointer that is still live is still a pointer. -/
theorem hasPointer_of_shrinks (held : m.HasPointer d id) (shrinks : m.Shrinks next) (alive : next.HasLive id) :
    next.HasPointer d id := by
  obtain ⟨b, p, held, kind⟩ := held
  obtain ⟨f, blocks, keeps⟩ := shrinks
  obtain ⟨member, same⟩ := block?_some held.found
  have mapped : next.block? id = some (f b) := by
    rw [block?, blocks, block?_map m id fun b => (keeps b).id, held.found, Option.map_some]
  obtain ⟨c, there, number, live⟩ := alive
  rw [blocks] at there
  obtain ⟨old, before, rfl⟩ := List.mem_map.mp there
  obtain rfl := sound.eq_of_id before member (((keeps old).id.symm.trans number).trans same.symm)
  have kinds := (keeps old).discipline
  rw [held.holds, Option.map_some] at kinds
  obtain ⟨q, holds, same⟩ := Option.map_eq_some_iff.mp kinds
  exact ⟨f old, q, ⟨mapped, live, holds⟩, same.trans kind⟩

/-- Only what counts owners is released, and no pointer does. -/
theorem hasLive_release (held : m.HasPointer d id) (other : BlockId) : (m.release other).HasLive id := by
  obtain ⟨b, p, held, _⟩ := held
  have alive := hasLive_of_block? held.found held.live
  cases m.released other with
  | kept same _ => rwa [same]
  | counted _ _ _ after => exact alive.countOwners after
  | freed found _ single after =>
    refine alive.bury after ?_
    rintro rfl
    obtain rfl := Option.some.inj (held.found.symm.trans found)
    have plain := sound.plain_of_owners? (block?_some found).1 (Option.isSome_of_eq_some single)
    rw [held.holds] at plain
    contradiction

theorem hasLive_leaveTarget (held : m.HasPointer d id) (left : Pointer) : (m.leaveTarget left).HasLive id := by
  unfold Memory.leaveTarget
  split
  · exact sound.hasLive_release held _
  · exact held.hasLive

/-- A pointer survives an assignment, whichever pointer is aimed. -/
theorem hasPointer_assignPointer (held : m.HasPointer d id) {pointer : BlockId} {target : Option BlockId}
    (done : m.assignPointer pointer target = .ok next) : next.HasPointer d id := by
  refine sound.hasPointer_of_shrinks held (.assignPointer done) ?_
  obtain ⟨b, p, _, _, rfl⟩ := assignPointer_eq_ok.mp done
  split
  · exact held.hasLive
  · have aimed : ((m.leaveTarget p).update b.id (·.aim target)).HasLive id :=
      (sound.hasLive_leaveTarget held p).aim target
    unfold Memory.reaim
    dsimp only
    split
    · exact aimed
    · split
      · exact aimed.countOwners rfl
      · exact aimed

theorem hasPointer_deallocateIfAny (held : m.HasPointer d id) {target : Option BlockId}
    (done : m.deallocateIfAny target = .ok next) (other : target ≠ some id) : next.HasPointer d id :=
  sound.hasPointer_of_shrinks held (.deallocateIfAny done) (held.hasLive.deallocateIfAny done other)

/-- A pointer that is deallocated cannot be aimed any more. -/
theorem assignPointer_deallocated (held : m.HasPointer d id) (done : m.deallocate id = .ok next)
    (target : Option BlockId) :
    next.assignPointer id target = .error (.alreadyFreed id) ∧ ¬ next.HasLive id := by
  obtain ⟨b, p, held, _⟩ := held
  obtain ⟨member, same⟩ := block?_some held.found
  have stack := sound.pointersOnStack b member (Option.isSome_of_eq_some held.holds)
  obtain ⟨c, found, _, rfl⟩ := deallocate_eq_ok.mp done
  obtain rfl := Option.some.inj (held.found.symm.trans found)
  rw [Block.owners?_of_isStack stack, if_neg (by simp)]
  have mapped : (m.free b "freed").block? id = some (b.bury id) := by
    rw [block?, free_blocks, same, block?_map m id (Block.bury_id id), held.found, Option.map_some]
  refine ⟨?_, same ▸ not_hasLive_free m b "freed"⟩
  simp [Memory.assignPointer, livePointer, liveBlock, mapped, same, bind, Except.bind]

end Sound

/-- A block that is there stays what it is when one is pushed. -/
theorem Pushes.block? (pushed : m.Pushes next b) {c : Block} (found : m.block? id = some c) :
    next.block? id = some c := by
  rw [Memory.block?] at found ⊢
  rw [pushed.blocks, List.find?_append, found, Option.some_or]

theorem Pushes.hasPointer (pushed : m.Pushes next b) (held : m.HasPointer d id) : next.HasPointer d id := by
  obtain ⟨c, p, held, kind⟩ := held
  exact ⟨c, p, ⟨pushed.block? held.found, held.live, held.holds⟩, kind⟩

theorem Pushes.member (pushed : m.Pushes next b) : b ∈ next.blocks :=
  pushed.blocks ▸ List.mem_append_right _ (List.mem_singleton_self b)

theorem Pushes.sound (pushed : m.Pushes next b) (sound : m.Sound) : next.Sound :=
  sound.push pushed.blocks pushed.nextId pushed.id pushed.pointerOnStack fun _ aimed =>
    absurd (pushed.unaimed.symm.trans aimed) nofun

/-- A pushed pointer is null. -/
theorem Pushes.livePointer (pushed : m.Pushes next b) (sound : m.Sound) (holds : b.pointer? = some p) :
    next.LivePointer b.id b p ∧ p.target = none :=
  ⟨⟨(pushed.sound sound).block?_of_mem pushed.member, pushed.live, holds⟩,
    (Block.target?_of_pointer? holds).symm.trans pushed.unaimed⟩

/-- No pointer is its own target. -/
def Selfless (m : Memory) : Prop := ∀ b ∈ m.blocks, b.target? ≠ some b.id

/-- An owner that leaves its scope can free its pointee, unless it owns itself. -/
theorem Sound.endScope_accepted (sound : m.Sound) (selfless : m.Selfless) {exit : ScopeExit}
    (left : m.endScope? = some exit) : exit.refused = none := by
  obtain ⟨b, member, _, _, _, rfl⟩ := endScope?_eq_some left
  unfold Memory.leaveScope
  dsimp only
  split
  · rename_i target _ holds
    have aimed : b.target? = some target := Block.target?_of_pointer? holds
    have other : target ≠ b.id := fun same => selfless b member (same ▸ aimed)
    have alive := (sound.targetsLive b member target aimed).free other "goes out of scope"
    obtain ⟨freed, done⟩ := (sound.free b "goes out of scope").deallocate_accepted.mpr alive
    rw [done]
  · rfl
  · rfl

end MemoryTrace.Memory
