import MemoryTrace.Proofs.Memory.Holders
import MemoryTrace.Proofs.Memory.Matched

namespace MemoryTrace.Memory

/-- Every shared block counts one for each live pointer that shares it and for each of its occurrences in `loose`, but
at least one while it lives. In the middle of an operation the operation itself may own blocks, on top of the
pointers: these are the blocks in `loose`. -/
structure Counted (m : Memory) (loose : List BlockId) : Prop where
  sound : m.Sound
  matched : m.Matched .unique
  counts : ∀ b ∈ m.blocks, ∀ owners, b.owners? = some owners →
    owners = if b.live then max 1 (m.holders .shared b.id + loose.count b.id) else 0

theorem counted_withCapacity (capacity : Nat) : (withCapacity capacity).Counted [] where
  sound := sound_withCapacity capacity
  matched := fun _ member => nomatch member
  counts := fun _ member => nomatch member

namespace Counted

variable {m next : Memory} {loose rest : List BlockId} (counted : m.Counted loose)

include counted

theorem congr (blocks : next.blocks = m.blocks) (nextId : next.nextId = m.nextId) :
    next.Counted loose where
  sound := counted.sound.congr blocks nextId
  matched := counted.matched.congr blocks
  counts := by
    simp only [blocks, holders_congr blocks]
    exact counted.counts

/-- Only how often a shared block occurs in `loose` matters. -/
theorem reweigh
    (same : ∀ t ∈ m.blocks, t.owners?.isSome → t.live →
      max 1 (m.holders .shared t.id + rest.count t.id) =
        max 1 (m.holders .shared t.id + loose.count t.id)) :
    m.Counted rest where
  sound := counted.sound
  matched := counted.matched
  counts := by
    intro b member owners before
    have exact_before := counted.counts b member owners before
    by_cases live : b.live
    · rw [if_pos live] at exact_before ⊢
      rw [same b member (Option.isSome_of_eq_some before) live]
      exact exact_before
    · rw [if_neg live] at exact_before ⊢
      exact exact_before

/-- The owner that a block counts in advance may be the operation. -/
theorem adopt {id : BlockId} (nobody : m.holders .shared id + loose.count id = 0) :
    m.Counted (id :: loose) := by
  refine counted.reweigh fun t _ _ _ => ?_
  rw [List.count_cons]
  split
  · rename_i same
    obtain rfl := eq_of_beq same
    omega
  · rfl

/-- A new block may take over what the operation owns. -/
theorem push {b : Block} (sound : next.Sound) (matched : next.Matched .unique)
    (blocks : next.blocks = m.blocks ++ [b]) (id : b.id = m.nextId) (live : b.live)
    (single : ∀ owners, b.owners? = some owners → owners = 1 ∧ rest.count b.id ≤ 1)
    (balance : ∀ t ∈ m.blocks, t.owners?.isSome →
      rest.count t.id + (b.holds .shared t.id).toNat = loose.count t.id) : next.Counted rest where
  sound := sound
  matched := matched
  counts := by
    intro c member owners counts
    rw [blocks] at member
    rcases List.mem_append.mp member with old | new
    · have before := counted.counts c old owners counts
      have moved := balance c old (Option.isSome_of_eq_some counts)
      have shared : next.holders .shared c.id = _ := holders_push blocks
      rw [before, shared, ← moved]
      ac_rfl
    · obtain rfl := List.mem_singleton.mp new
      obtain ⟨rfl, few⟩ := single owners counts
      have plain := sound.plain_of_owners? (blocks ▸ List.mem_append_right _ new)
        (Option.isSome_of_eq_some counts)
      have none_yet : m.holders .shared c.id = 0 := id ▸ counted.sound.holders_next .shared
      have shared : next.holders .shared c.id = _ := holders_push blocks
      rw [if_pos live, shared, none_yet, Block.holds_of_plain plain]
      simp only [Bool.toNat_false]
      omega

/-- Aiming a pointer takes its new target from what the operation owns, and hands the old one over
to it. -/
theorem aim {b : Block} (member : b ∈ m.blocks) {target : Option BlockId}
    (live : ∀ id, target = some id → m.HasLive id)
    (fits : ∀ p, b.pointer? = some p → p.discipline = .unique → m.Fits .unique target)
    (balance : ∀ t ∈ m.blocks, t.owners?.isSome →
      rest.count t.id + ((b.aim target).holds .shared t.id).toNat =
        loose.count t.id + (b.holds .shared t.id).toNat) :
    (m.update b.id (·.aim target)).Counted rest where
  sound := counted.sound.aim b.id live
  matched := counted.matched.aim counted.sound member fits
  counts := by
    intro c there owners counts
    rw [update_blocks] at there
    obtain ⟨t, known, rfl⟩ := List.mem_map.mp there
    have storage : (if t.id = b.id then t.aim target else t).owners? = t.owners? := by split <;> simp
    have alive : (if t.id = b.id then t.aim target else t).live = t.live := by split <;> simp
    have same : (if t.id = b.id then t.aim target else t).id = t.id := by split <;> simp
    rw [storage] at counts
    rw [alive, same]
    have before := counted.counts t known owners counts
    have moved := balance t known (Option.isSome_of_eq_some counts)
    have shared := counted.sound.holders_update member (·.aim target) .shared t.id
    have total : (m.update b.id (·.aim target)).holders .shared t.id + rest.count t.id =
      m.holders .shared t.id + loose.count t.id := by omega
    rw [total]
    exact before

/-- A freed pointer hands what it shared over to the operation. -/
theorem bury {b : Block} (member : b ∈ m.blocks)
    (blocks : next.blocks = m.blocks.map (Block.bury b.id)) (nextId : next.nextId = m.nextId)
    (balance : ∀ t ∈ m.blocks, t.id ≠ b.id → t.owners?.isSome →
      rest.count t.id = loose.count t.id + (b.holds .shared t.id).toNat) : next.Counted rest where
  sound := counted.sound.bury blocks nextId
  matched := counted.matched.bury blocks
  counts := by
    intro c there owners counts
    rw [blocks] at there
    obtain ⟨t, known, rfl⟩ := List.mem_map.mp there
    rw [Block.bury_owners?] at counts
    rw [Block.bury_live, Block.bury_id]
    by_cases gone : t.id = b.id
    · rw [if_pos gone] at counts
      obtain ⟨_, _, rfl⟩ := Option.map_eq_some_iff.mp counts
      simp [gone]
    · rw [if_neg gone] at counts
      have before := counted.counts t known owners counts
      have moved := balance t known gone (Option.isSome_of_eq_some counts)
      have shared : next.holders .shared t.id + _ = _ :=
        counted.sound.holders_bury member blocks gone
      have total : next.holders .shared t.id + rest.count t.id =
          m.holders .shared t.id + loose.count t.id := by omega
      rw [total]
      simpa [gone] using before

/-- Changing the count of a live shared block makes up for a change in what the operation owns. -/
theorem countOwners {id : BlockId} {f : Nat → Nat}
    (blocks : next.blocks = (m.update id (Block.countOwners f)).blocks)
    (nextId : next.nextId = m.nextId)
    (others : ∀ t : BlockId, t ≠ id → rest.count t = loose.count t)
    (recount : ∀ t ∈ m.blocks, t.id = id → ∀ owners, t.owners? = some owners → t.live ∧
      f owners = max 1 (m.holders .shared id + rest.count id)) : next.Counted rest where
  sound := counted.sound.countOwners blocks nextId
  matched := counted.matched.countOwners blocks
  counts := by
    intro c there owners counts
    rw [blocks, update_blocks] at there
    obtain ⟨t, known, rfl⟩ := List.mem_map.mp there
    rw [holders_countOwners blocks]
    by_cases this : t.id = id
    · rw [if_pos this] at counts ⊢
      rw [Block.countOwners_owners?] at counts
      obtain ⟨old, stored, rfl⟩ := Option.map_eq_some_iff.mp counts
      obtain ⟨live, recounted⟩ := recount t known this old stored
      rw [Block.countOwners_live, Block.countOwners_id, if_pos live, this, recounted]
    · rw [if_neg this] at counts ⊢
      rw [others t.id this]
      exact counted.counts t known owners counts

/-- A shared block that is still owned gains an owner. -/
theorem retain {id : BlockId} (live : ∀ t ∈ m.blocks, t.id = id → t.live)
    (owned : 0 < m.holders .shared id + loose.count id) : (m.retain id).Counted (id :: loose) := by
  refine counted.countOwners rfl rfl (fun t other => List.count_cons_of_ne (Ne.symm other)) ?_
  intro t known same owners counts
  have alive := live t known same
  have before := counted.counts t known owners counts
  rw [if_pos alive, same] at before
  rw [List.count_cons_self]
  exact ⟨alive, by omega⟩

end Counted

/-- The operation gives up a block it owns. -/
theorem Counted.release {m : Memory} {rest : List BlockId} {id : BlockId}
    (counted : m.Counted (id :: rest)) : (m.release id).Counted rest := by
  have others (t : BlockId) (other : t ≠ id) : rest.count t = (id :: rest).count t :=
    (List.count_cons_of_ne (Ne.symm other)).symm
  cases m.released id with
  | kept same uncounted =>
    rw [same]
    refine counted.reweigh fun t member shared live => ?_
    have other : t.id ≠ id := by
      intro this
      obtain ⟨owners, counts⟩ := Option.isSome_iff_exists.mp shared
      have positive := counted.counts t member owners counts
      rw [if_pos live] at positive
      obtain ⟨fewer, rfl⟩ := Nat.exists_eq_succ_of_ne_zero (show owners ≠ 0 by omega)
      exact uncounted t (counted.sound.block?_eq_some.mpr ⟨member, this⟩) live fewer counts
    rw [others t.id other]
  | @counted b owners found live before after =>
    refine counted.countOwners after (m.release_nextId id) others fun t known same stored counts => ?_
    obtain rfl :=
      Option.some.inj (found.symm.trans (counted.sound.block?_eq_some.mpr ⟨known, same⟩))
    obtain rfl := Option.some.inj (before.symm.trans counts)
    have exact_before := counted.counts b known _ before
    rw [if_pos live, same, List.count_cons_self] at exact_before
    exact ⟨live, by omega⟩
  | @freed b found live before after =>
    obtain ⟨member, rfl⟩ := block?_some found
    refine counted.bury member after (m.release_nextId b.id) fun t _ other _ => ?_
    rw [Block.holds_of_plain (counted.sound.plain_of_owners? member (Option.isSome_of_eq_some before)),
      others t.id other]
    rfl

end MemoryTrace.Memory
