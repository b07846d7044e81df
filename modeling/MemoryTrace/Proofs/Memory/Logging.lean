import MemoryTrace.Proofs.Memory.Changes

namespace MemoryTrace

/-- Whether the event tells of the beginning of this block. -/
def Event.creates (id : BlockId) (e : Event) : Bool := e.kind.creates && e.block = id

/-- Whether the event tells of the end of this block. -/
def Event.frees (id : BlockId) (e : Event) : Bool := e.kind.frees && e.block = id

/-- A log that has room has dropped nothing since it was empty. -/
def EventLog.HasRoom (log : EventLog) : Prop := log.entries.length < log.capacity

/-- A log that has room after a push had room before it, and has the new event at its end. -/
theorem EventLog.HasRoom.of_push {log : EventLog} {e : Event} (room : (log.push e).HasRoom) :
    log.HasRoom ∧ (log.push e).entries = log.entries ++ [e] := by
  have fits : log.entries.length + 1 ≤ log.capacity := by
    unfold HasRoom push at room
    simp only [List.length_drop, List.length_append, List.length_singleton] at room
    omega
  refine ⟨fits, ?_⟩
  rw [push, Nat.sub_eq_zero_of_le fits, List.drop_zero]

namespace Memory

variable {m next : Memory}

/-- What the log tells of the blocks: who was created, in order, and who was freed, once each. -/
structure Told (m : Memory) : Prop where
  distinct : (m.blocks.map (·.id)).Nodup
  created : (m.events.entries.filter (·.kind.creates)).map (·.block) = m.blocks.map (·.id)
  freed : ∀ b ∈ m.blocks, m.events.entries.countP (·.frees b.id) = if b.live then 0 else 1
  known : ∀ e ∈ m.events.entries, e.kind.frees → ∃ b ∈ m.blocks, b.id = e.block
  ordered : m.events.entries.Pairwise fun earlier later => later.kind.creates → earlier.frees later.block = false

theorem told_withCapacity (capacity : Nat) : (withCapacity capacity).Told where
  distinct := .nil
  created := rfl
  freed := fun _ member => nomatch member
  known := fun _ member => nomatch member
  ordered := .nil

namespace Told

variable (told : m.Told)

include told

theorem create {b : Block} {e : Event} (blocks : next.blocks = m.blocks ++ [b]) (live : b.live)
    (later : ∀ c ∈ m.blocks, c.id < b.id) (entries : next.events.entries = m.events.entries ++ [e])
    (kind : e.kind.creates) (about : e.block = b.id) : next.Told := by
  have plain := EventKind.frees_of_creates kind
  have unfreed (old : Event) (member : old ∈ m.events.entries) : old.frees b.id = false := by
    refine Bool.eq_false_iff.mpr fun frees => ?_
    obtain ⟨freed, same⟩ := (Bool.and_eq_true ..).mp frees
    obtain ⟨c, there, number⟩ := told.known old member freed
    have before := later c there
    rw [number, of_decide_eq_true same] at before
    exact Nat.lt_irrefl _ before
  refine ⟨?_, ?_, fun c member => ?_, fun old member frees => ?_, ?_⟩
  · rw [blocks, List.map_append, List.nodup_append]
    refine ⟨told.distinct, List.nodup_singleton _, fun id old other new => ?_⟩
    obtain ⟨c, there, rfl⟩ := List.mem_map.mp old
    rw [List.mem_singleton.mp new]
    exact Nat.ne_of_lt (later c there)
  · simp only [entries, blocks, List.filter_append, List.map_append, told.created]
    simp [kind, about]
  · rw [entries, List.countP_append]
    rw [blocks] at member
    rcases List.mem_append.mp member with old | new
    · rw [told.freed c old]
      simp [Event.frees, plain]
    · obtain rfl := List.mem_singleton.mp new
      rw [List.countP_eq_zero.mpr fun old member => by simp [unfreed old member]]
      simp [Event.frees, plain, live]
  · rw [entries] at member
    rw [blocks]
    rcases List.mem_append.mp member with old | new
    · obtain ⟨c, there, same⟩ := told.known _ old frees
      exact ⟨c, List.mem_append_left _ there, same⟩
    · obtain rfl := List.mem_singleton.mp new
      rw [plain] at frees
      contradiction
  · rw [entries, List.pairwise_append]
    refine ⟨told.ordered, List.pairwise_singleton .., fun earlier before other new _ => ?_⟩
    rw [List.mem_singleton.mp new, about]
    exact unfreed earlier before

/-- A block that is freed was not told of as freed before, since it was live. -/
theorem free {id : BlockId} {e : Event} (alive : m.HasLive id) (blocks : next.blocks = m.blocks.map (Block.bury id))
    (entries : next.events.entries = m.events.entries ++ [e]) (kind : e.kind.frees) (about : e.block = id) :
    next.Told := by
  have plain : e.kind.creates = false := Bool.eq_false_iff.mpr fun created => by
    rw [EventKind.frees_of_creates created] at kind
    contradiction
  have ids : next.blocks.map (·.id) = m.blocks.map (·.id) := by simp [blocks, Function.comp_def]
  obtain ⟨b, there, rfl, live⟩ := alive
  refine ⟨ids ▸ told.distinct, ?_, fun c member => ?_, fun old member frees => ?_, ?_⟩
  · rw [ids, ← told.created, entries, List.filter_append]
    simp [plain]
  · rw [blocks] at member
    obtain ⟨old, was, rfl⟩ := List.mem_map.mp member
    rw [entries, List.countP_append, Block.bury_id, told.freed old was]
    by_cases same : old.id = b.id
    · obtain rfl := List.inj_on_of_nodup_map told.distinct was there same
      simp [Event.frees, kind, about, live]
    · simp [Event.frees, about, same, Ne.symm same]
  · rw [entries] at member
    have kept : ∃ c ∈ m.blocks, c.id = old.block := by
      rcases List.mem_append.mp member with before | new
      · exact told.known _ before frees
      · obtain rfl := List.mem_singleton.mp new
        exact ⟨b, there, about.symm⟩
    obtain ⟨c, was, same⟩ := kept
    exact ⟨c.bury b.id, blocks ▸ List.mem_map_of_mem was, (c.bury_id b.id).trans same⟩
  · rw [entries, List.pairwise_append]
    refine ⟨told.ordered, List.pairwise_singleton .., fun _ _ other new creates => ?_⟩
    rw [List.mem_singleton.mp new, plain] at creates
    contradiction

/-- Changing blocks in place keeps what is told, whatever is logged on the side. -/
theorem alter {f : Block → Block} (more : List Event) (blocks : next.blocks = m.blocks.map f)
    (ids : ∀ b, (f b).id = b.id) (lives : ∀ b, (f b).live = b.live)
    (entries : next.events.entries = m.events.entries ++ more)
    (aside : ∀ e ∈ more, e.kind.creates = false ∧ e.kind.frees = false) : next.Told := by
  have same_ids : next.blocks.map (·.id) = m.blocks.map (·.id) := by simp [blocks, Function.comp_def, ids]
  refine ⟨same_ids ▸ told.distinct, ?_, fun c member => ?_, fun old member frees => ?_, ?_⟩
  · have nothing : more.filter (·.kind.creates) = [] :=
      List.filter_eq_nil_iff.mpr fun e new => by simp [(aside e new).1]
    rw [same_ids, ← told.created, entries, List.filter_append, nothing, List.append_nil]
  · rw [blocks] at member
    obtain ⟨old, was, rfl⟩ := List.mem_map.mp member
    have nothing : more.countP (·.frees old.id) = 0 :=
      List.countP_eq_zero.mpr fun e new => by simp [Event.frees, (aside e new).2]
    rw [entries, List.countP_append, ids, lives, told.freed old was, nothing, Nat.add_zero]
  · rw [entries] at member
    rcases List.mem_append.mp member with before | new
    · obtain ⟨c, was, same⟩ := told.known _ before frees
      exact ⟨f c, blocks ▸ List.mem_map_of_mem was, (ids c).trans same⟩
    · rw [(aside old new).2] at frees
      contradiction
  · rw [entries, List.pairwise_append]
    refine ⟨told.ordered, ?_, fun _ _ other new creates => ?_⟩
    · refine List.pairwise_of_forall_mem_list fun _ _ other new creates => ?_
      rw [(aside other new).1] at creates
      contradiction
    · rw [(aside other new).1] at creates
      contradiction

end Told

/-- One change keeps the log telling of every block, as long as it has room. -/
theorem Change.told (change : m.Change next) (room : next.events.HasRoom) :
    m.events.HasRoom ∧ (m.Told → next.Told) := by
  cases change with
  | create blocks live later logged kind about =>
    obtain ⟨before, entries⟩ := EventLog.HasRoom.of_push (logged ▸ room)
    exact ⟨before, fun told => told.create blocks live later (logged ▸ entries) kind about⟩
  | free alive blocks logged kind about =>
    obtain ⟨before, entries⟩ := EventLog.HasRoom.of_push (logged ▸ room)
    exact ⟨before, fun told => told.free alive blocks (logged ▸ entries) kind about⟩
  | alter blocks becomes lives logged =>
    have ids (b : Block) := (becomes b).id
    rcases logged with same | ⟨e, logged, aside⟩
    · refine ⟨same ▸ room, fun told => told.alter [] blocks ids lives ?_ nofun⟩
      rw [same, List.append_nil]
    · obtain ⟨before, entries⟩ := EventLog.HasRoom.of_push (logged ▸ room)
      refine ⟨before, fun told => told.alter [e] blocks ids lives (logged ▸ entries) fun other new => ?_⟩
      rwa [List.mem_singleton.mp new]

theorem Changes.told (changes : m.Changes next) (room : next.events.HasRoom) :
    m.events.HasRoom ∧ (m.Told → next.Told) := by
  induction changes with
  | refl => exact ⟨room, id⟩
  | tail _ last ih =>
    obtain ⟨before, step⟩ := last.told room
    obtain ⟨start, chain⟩ := ih before
    exact ⟨start, step ∘ chain⟩

/-- As long as the log has room, it tells of every block that it was created and, if it is gone, that it was freed,
and of each only once. -/
theorem Reachable.told (reach : m.Reachable) (room : m.events.HasRoom) : m.Told := by
  induction reach with
  | fresh capacity => exact told_withCapacity capacity
  | @next m operation before _ ih =>
    by_cases again : operation = .reset
    · subst again
      exact told_withCapacity _
    · obtain ⟨before, step⟩ := (Changes.perform before.sound again).told room
      exact step (ih before)

/-- A block on record is told of as created once. -/
theorem Told.count_creates (told : m.Told) {b : Block} (member : b ∈ m.blocks) :
    m.events.entries.countP (·.creates b.id) = 1 := by
  have named : m.events.entries.countP (·.creates b.id) =
      ((m.events.entries.filter (·.kind.creates)).map (·.block)).count b.id := by
    rw [List.count, List.countP_map, List.countP_filter]
    refine List.countP_congr fun e _ => ?_
    simp [Event.creates, and_comm]
  rw [named, told.created]
  exact List.count_eq_one_of_mem told.distinct (List.mem_map_of_mem member)

/-- As long as the log has room, it tells of the creation of every block once, in the order of their numbers, and
once that a block is freed, after that, or never if it lives. -/
theorem log_tells_every_block (reach : m.Reachable) (room : m.events.HasRoom) :
    (∀ b ∈ m.blocks,
      m.events.entries.countP (·.creates b.id) = 1 ∧
      m.events.entries.countP (·.frees b.id) = (if b.live then 0 else 1) ∧
      ∀ before e after, m.events.entries = before ++ e :: after → e.frees b.id → ∃ c ∈ before, c.creates b.id) ∧
    ((m.events.entries.filter (·.kind.creates)).map (·.block)).Pairwise (· < ·) := by
  have told := reach.told room
  refine ⟨fun b member => ⟨told.count_creates member, told.freed b member, ?_⟩, ?_⟩
  · intro before e after entries frees
    have once : 0 < m.events.entries.countP (·.creates b.id) := by rw [told.count_creates member]; omega
    obtain ⟨c, logged, creates⟩ := List.countP_pos_iff.mp once
    obtain ⟨kind, about⟩ := (Bool.and_eq_true ..).mp creates
    have ordered := told.ordered
    rw [entries] at logged ordered
    rcases List.mem_append.mp logged with first | second
    · exact ⟨c, first, creates⟩
    · rcases List.mem_cons.mp second with rfl | later
      · rw [Event.frees, EventKind.frees_of_creates kind] at frees
        contradiction
      · have spared := List.rel_of_pairwise_cons (List.pairwise_append.mp ordered).2.1 later kind
        rw [of_decide_eq_true about, frees] at spared
        contradiction
  · rw [told.created, reach.sound.numbered]
    exact List.pairwise_lt_range'

/-- A unique pointer that owns itself and a shared block with two owners, all gone. -/
theorem log_tells_every_block_of_cascade :
    ∃ m : Memory, m.Reachable ∧ m.events.HasRoom ∧ m.blocks.length = 4 ∧ m.liveBlocks = [] ∧
      ∀ b ∈ m.blocks, m.events.entries.countP (·.creates b.id) = 1 ∧ m.events.entries.countP (·.frees b.id) = 1 := by
  let m := (withCapacity 32).run [.createPointer "u" .unique none, .assignPointer 1 (some 1),
    .createPointer "p" .shared none, .allocate "*p" 4 .shared, .assignPointer 2 (some 3), .copyShared 2 "q",
    .endScope, .endScope, .endScope]
  have reach : m.Reachable := Reachable.run (.fresh 32) _
  have room : m.events.HasRoom := by unfold EventLog.HasRoom; decide
  have gone : ∀ b ∈ m.blocks, b.live = false := by decide
  refine ⟨m, reach, room, by decide, by decide, fun b member => ?_⟩
  obtain ⟨created, freed, _⟩ := (log_tells_every_block reach room).1 b member
  rw [gone b member] at freed
  exact ⟨created, freed⟩

end Memory

end MemoryTrace
