import MemoryTrace.Proofs.Memory.OwnedOperations

namespace MemoryTrace.Memory

/-- The discipline of the pointer that a block holds, dead or alive. -/
def discipline? (m : Memory) (id : BlockId) : Option Discipline :=
  ((m.block? id).bind (·.pointer?)).map (·.discipline)

theorem discipline?_eq_some {m : Memory} {id : BlockId} {d : Discipline} :
    m.discipline? id = some d ↔
      ∃ b p, m.block? id = some b ∧ b.pointer? = some p ∧ p.discipline = d := by
  simp only [discipline?, Option.map_eq_some_iff, Option.bind_eq_some_iff]
  constructor
  · rintro ⟨p, ⟨b, found, holds⟩, kind⟩
    exact ⟨b, p, found, holds, kind⟩
  · rintro ⟨b, p, found, holds, kind⟩
    exact ⟨p, ⟨b, found, holds⟩, kind⟩

/-- Pointers keep their disciplines, and no block comes to the raw heap. That is so while blocks come and go and
owning pointers are given new targets. -/
structure Extends (m next : Memory) : Prop where
  disciplines : ∀ id d, m.discipline? id = some d → next.discipline? id = some d
  noRaw : ∀ b ∈ next.blocks, b.isHeapOf .raw → ∃ c ∈ m.blocks, c.isHeapOf .raw

namespace Extends

variable {m next : Memory}

theorem trans {middle : Memory} (first : m.Extends middle) (second : middle.Extends next) :
    m.Extends next where
  disciplines := fun id d known => second.disciplines id d (first.disciplines id d known)
  noRaw := by
    intro b member raw
    obtain ⟨c, there, was⟩ := second.noRaw b member raw
    exact first.noRaw c there was

/-- What only loses blocks and targets brings none to the raw heap. -/
theorem of_shrinks (shrinks : m.Shrinks next) : m.Extends next := by
  obtain ⟨f, blocks, keeps⟩ := shrinks
  refine ⟨fun id d known => ?_, fun b member raw => ?_⟩
  · have mapped : next.block? id = (m.block? id).map f := by
      rw [block?, blocks]
      exact block?_map m id fun b => (keeps b).id
    rw [discipline?, mapped, ← known, discipline?]
    cases m.block? id with
    | none => rfl
    | some b => exact (keeps b).discipline
  · rw [blocks] at member
    obtain ⟨c, there, rfl⟩ := List.mem_map.mp member
    rw [Block.isHeapOf, (keeps c).isStack, (keeps c).managedBy] at raw
    exact ⟨c, there, raw⟩

/-- A new block may come, if it is not on the raw heap. -/
theorem push {b : Block} (blocks : next.blocks = m.blocks ++ [b]) (smart : ¬ b.isHeapOf .raw) :
    m.Extends next := by
  refine ⟨fun id d known => ?_, fun c member raw => ?_⟩
  · obtain ⟨c, p, found, holds, kind⟩ := discipline?_eq_some.mp known
    refine discipline?_eq_some.mpr ⟨c, p, ?_, holds, kind⟩
    rw [block?, blocks, List.find?_append]
    rw [block?] at found
    rw [found, Option.some_or]
  · rw [blocks] at member
    rcases List.mem_append.mp member with old | new
    · exact ⟨c, old, raw⟩
    · obtain rfl := List.mem_singleton.mp new
      exact absurd raw smart

theorem pushCopy (m : Memory) (b : Block) (p : Pointer) (name : String) :
    m.Extends (m.pushCopy b p name) := by
  have not_heap {c : Block} (stack : c.isStack) : ¬ c.isHeapOf .raw := by
    simp [Block.isHeapOf, stack]
  cases aimed : p.target with
  | none =>
    obtain ⟨c, pushed, stack, _⟩ := m.pushCopy_pushes b aimed name
    exact push pushed.blocks (not_heap stack)
  | some id =>
    obtain ⟨c, blocks, _, _, stack, _⟩ := pushCopy_blocks m b aimed name
    exact (of_shrinks (.countOwners m id _)).trans (push blocks (not_heap stack))

end Extends

theorem fits_none (m : Memory) (d : Discipline) : m.Fits d none := fun _ _ aimed => nomatch aimed

/-- A new pointer has the discipline that it was made with. -/
theorem Pushes.discipline? {m next : Memory} {b : Block} (pushed : m.Pushes next b)
    (sound : next.Sound) {p : Pointer} (holds : b.pointer? = some p) :
    next.discipline? m.nextId = some p.discipline := by
  have member : b ∈ next.blocks :=
    pushed.blocks ▸ List.mem_append_right _ (List.mem_singleton_self b)
  exact discipline?_eq_some.mpr ⟨b, p, sound.block?_eq_some.mpr ⟨member, pushed.id⟩, holds, rfl⟩

theorem pushCopy_discipline? {m : Memory} {b : Block} {p : Pointer} {name : String}
    (sound : (m.pushCopy b p name).Sound) :
    (m.pushCopy b p name).discipline? m.nextId = some p.discipline := by
  obtain ⟨c, member, same, holds⟩ :
      ∃ c ∈ (m.pushCopy b p name).blocks, c.id = m.nextId ∧ c.pointer? = some p := by
    cases aimed : p.target with
    | none =>
      obtain ⟨c, pushed, _, holds⟩ := m.pushCopy_pushes b aimed name
      exact ⟨c, pushed.blocks ▸ List.mem_append_right _ (List.mem_singleton_self c), pushed.id, holds⟩
    | some id =>
      obtain ⟨c, blocks, same, _, _, holds⟩ := pushCopy_blocks m b aimed name
      exact ⟨c, blocks ▸ List.mem_append_right _ (List.mem_singleton_self c), same, holds⟩
  exact discipline?_eq_some.mpr ⟨c, p, sound.block?_eq_some.mpr ⟨member, same⟩, holds, rfl⟩

/-- An owning pointer may be given a new block, or nothing, once a unique pointer's old one is
deallocated. -/
theorem Owned.reseat {m freed next : Memory} {id : BlockId} {b : Block} {p : Pointer}
    {target : Option BlockId} (owned : m.Owned target.toList) (found : m.block? id = some b) (holds : b.pointer? = some p)
    (smart : p.discipline ≠ .raw) (fresh : ∀ t, target = some t → m.Untargeted t)
    (fits : m.Fits p.discipline target)
    (released : m.deallocateIfAny
      ((if p.discipline = .unique then p.target else none).filter (some · ≠ target)) = .ok freed)
    (done : freed.assignPointer id target = .ok next) : next.Owned [] := by
  obtain ⟨c, q, held, _⟩ := assignPointer_eq_ok.mp done
  have kept (unfreed : freed = m) : c = b ∧ q = p := by
    subst unfreed
    obtain rfl := Option.some.inj (found.symm.trans held.found)
    exact ⟨rfl, Option.some.inj (held.holds.symm.trans holds)⟩
  cases kind : p.discipline with
  | raw => exact absurd kind smart
  | shared =>
    rw [kind] at released fits
    obtain rfl := Except.ok.inj released
    obtain ⟨rfl, rfl⟩ := kept rfl
    exact owned.assignShared held done kind (.inr ⟨rfl, fresh⟩) fits
  | unique =>
    rw [kind, if_pos rfl] at released
    rw [kind] at fits
    rw [← List.append_nil target.toList] at owned
    cases aimed : p.target with
    | none =>
      rw [aimed] at released
      obtain rfl := Except.ok.inj released
      obtain ⟨rfl, rfl⟩ := kept rfl
      exact owned.assignUnique held done kind aimed fits
    | some old =>
      have member := (block?_some found).1
      have other : some old ≠ target := fun same =>
        fresh old same.symm b member ((Block.target?_of_pointer? holds).trans aimed)
      rw [aimed, Option.filter_some, decide_eq_true other, if_pos rfl] at released
      obtain ⟨t, there, rfl, _, heap, rfl⟩ :=
        (owned.matched .unique).deallocate member holds kind aimed released
      have left := owned.freeHeap there (Block.uncounted_of_isHeapOf heap (by decide)).1 "freed"
      have mapped : (m.free t "freed").block? id = some (b.bury t.id) := by
        rw [block?, free_blocks, block?_map m id (Block.bury_id t.id), found, Option.map_some]
      obtain rfl := Option.some.inj (mapped.symm.trans held.found)
      have buried := Block.bury_pointer? t.id b
      rw [holds, held.holds] at buried
      obtain rfl := Option.some.inj buried
      exact left.assignUnique held done kind (by simp [Pointer.without, aimed, Option.filter])
        (fits.map (free_blocks ..) (by simp) (by simp))

end MemoryTrace.Memory
