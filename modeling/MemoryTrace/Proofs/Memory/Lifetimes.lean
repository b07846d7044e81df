import MemoryTrace.Proofs.Memory.Appending
import MemoryTrace.Proofs.Memory.Logging
import MemoryTrace.Proofs.Memory.Primitives

namespace MemoryTrace

namespace Block

@[simp] theorem aim_lifetime (b : Block) (target : Option BlockId) : (b.aim target).lifetime = b.lifetime := by
  unfold aim; split <;> rfl

@[simp] theorem countOwners_lifetime (f : Nat → Nat) (b : Block) : (b.countOwners f).lifetime = b.lifetime := by
  unfold countOwners; split <;> rfl

@[simp] theorem forget_lifetime (id : BlockId) (b : Block) : (b.forget id).lifetime = b.lifetime := by
  unfold forget; split <;> simp

@[simp] theorem bury_lifetime (id : BlockId) (b : Block) : (b.bury id).lifetime = b.lifetime := by
  unfold bury; split <;> simp [die]

end Block

/-- A log with room has taken in all that was pushed. -/
theorem EventLog.HasRoom.of_pushAll {log : EventLog} {events : List Event} (room : (log.pushAll events).HasRoom) :
    log.HasRoom ∧ (log.pushAll events).entries = log.entries ++ events := by
  induction events generalizing log with
  | nil => exact ⟨room, (List.append_nil _).symm⟩
  | cons e rest ih =>
    obtain ⟨pushed, rest⟩ := @ih (log.push e) room
    obtain ⟨before, first⟩ := of_push pushed
    refine ⟨before, rest.trans ?_⟩
    rw [first, List.append_assoc, List.singleton_append]

namespace Memory

variable {m next : Memory}

/-- The blocks of `next` are as old as they were in `m`, and the new ones have not aged yet. -/
structure Unaged (m next : Memory) : Prop where
  grows : m.nextId ≤ next.nextId
  blocks : ∀ c ∈ next.blocks, (∃ b ∈ m.blocks, b.id = c.id ∧ b.lifetime = c.lifetime ∧ (c.live → b.live)) ∨
    c.lifetime = 0 ∧ m.nextId ≤ c.id

namespace Unaged

theorem refl (m : Memory) : m.Unaged m :=
  ⟨Nat.le_refl _, fun c member => .inl ⟨c, member, rfl, rfl, fun live => live⟩⟩

/-- Blocks that have not aged in either of two parts have not aged. -/
theorem trans {last : Memory} (first : m.Unaged next) (second : next.Unaged last) : m.Unaged last := by
  refine ⟨Nat.le_trans first.grows second.grows, fun d there => ?_⟩
  rcases second.blocks d there with ⟨c, between, same, ages, lives⟩ | ⟨fresh, later⟩
  · rcases first.blocks c between with ⟨b, old, was, aged, lived⟩ | ⟨fresh, later⟩
    · exact .inl ⟨b, old, was.trans same, aged.trans ages, lived ∘ lives⟩
    · exact .inr ⟨ages ▸ fresh, same ▸ later⟩
  · exact .inr ⟨fresh, Nat.le_trans first.grows later⟩

theorem map {f : Block → Block} (blocks : next.blocks = m.blocks.map f) (grows : m.nextId ≤ next.nextId)
    (ids : ∀ b, (f b).id = b.id) (ages : ∀ b, (f b).lifetime = b.lifetime) (lives : ∀ b, (f b).live → b.live) :
    m.Unaged next := by
  refine ⟨grows, fun c there => ?_⟩
  rw [blocks] at there
  obtain ⟨b, old, rfl⟩ := List.mem_map.mp there
  exact .inl ⟨b, old, (ids b).symm, (ages b).symm, lives b⟩

theorem update (m : Memory) (id : BlockId) {f : Block → Block} (ids : ∀ b, (f b).id = b.id)
    (ages : ∀ b, (f b).lifetime = b.lifetime) (lives : ∀ b, (f b).live → b.live) : m.Unaged (m.update id f) := by
  refine map (update_blocks m id f) (Nat.le_refl _) ?_ ?_ ?_
  all_goals intro b; split
  · exact ids b
  · rfl
  · exact ages b
  · rfl
  · exact lives b
  · exact fun live => live

theorem push {b : Block} (blocks : next.blocks = m.blocks ++ [b]) (grows : m.nextId ≤ next.nextId)
    (fresh : b.lifetime = 0) (number : b.id = m.nextId) : m.Unaged next := by
  refine ⟨grows, fun c there => ?_⟩
  rw [blocks] at there
  rcases List.mem_append.mp there with old | new
  · exact .inl ⟨c, old, rfl, rfl, fun live => live⟩
  · obtain rfl := List.mem_singleton.mp new
    exact .inr ⟨fresh, Nat.le_of_eq number.symm⟩

end Unaged

/-- Only a tick takes time, and only a tick makes blocks age. -/
theorem Primitive.unaged (step : m.Primitive next) :
    m.clock ≤ next.clock ∧ (next.clock = m.clock → m.Unaged next) := by
  cases step with
  | pushStack => exact ⟨Nat.le_refl _, fun _ => .push rfl (Nat.le_succ _) rfl rfl⟩
  | pushHeap => exact ⟨Nat.le_refl _, fun _ => .push rfl (Nat.le_succ _) rfl rfl⟩
  | @free b _ _ reason =>
    exact ⟨Nat.le_refl _, fun _ => .map (free_blocks m b reason) (Nat.le_refl _) (by simp) (by simp) (by simp_all)⟩
  | aim pointer target => exact ⟨Nat.le_refl _, fun _ => .update m pointer (by simp) (by simp) (by simp)⟩
  | countOwners => exact ⟨Nat.le_refl _, fun _ => .update m _ (by simp) (by simp) (by simp)⟩
  | record => exact ⟨Nat.le_refl _, fun _ => ⟨Nat.le_refl _, (Unaged.refl m).blocks⟩⟩
  | tick => exact ⟨Nat.le_succ _, fun same => absurd same (Nat.succ_ne_self _)⟩

/-- Steps go on in time, and where no time passes no block ages. -/
theorem Primitives.unaged (steps : m.Primitives next) :
    m.clock ≤ next.clock ∧ (next.clock = m.clock → m.Unaged next) := by
  induction steps with
  | refl => exact ⟨Nat.le_refl _, fun _ => .refl m⟩
  | tail _ last ih =>
    obtain ⟨later, unaged⟩ := last.unaged
    refine ⟨Nat.le_trans ih.1 later, fun same => ?_⟩
    have between := Nat.le_antisymm (same ▸ later) ih.1
    exact (ih.2 between).trans (unaged (same.trans between.symm))

/-- Each block is as old as the log says. -/
def Dated (m : Memory) : Prop := ∀ b ∈ m.blocks, ∀ c ∈ m.events.entries, c.creates b.id →
  (b.live → c.time + b.lifetime = m.clock) ∧ ∀ d ∈ m.events.entries, d.frees b.id → c.time + b.lifetime = d.time

/-- Only blocks that are on record are said to be created or freed. -/
theorem Told.on_record (told : m.Told) {id : BlockId} {e : Event} (logged : e ∈ m.events.entries)
    (about : e.creates id ∨ e.frees id) : ∃ b ∈ m.blocks, b.id = id := by
  rcases about with creates | frees
  · obtain ⟨kind, about⟩ := (Bool.and_eq_true ..).mp creates
    refine List.mem_map.mp ?_
    rw [← told.created, ← of_decide_eq_true about]
    exact List.mem_map_of_mem (List.mem_filter.mpr ⟨logged, kind⟩)
  · obtain ⟨kind, about⟩ := (Bool.and_eq_true ..).mp frees
    exact of_decide_eq_true about ▸ told.known e logged kind

/-- A block that is on record is not created again, and it can only be freed while it lives. The log told of the
beginning before, and of the end if there was one, and its counts leave no room for another. -/
theorem Told.appended (before : m.Told) (after : next.Told) {more : List Event}
    (entries : next.events.entries = m.events.entries ++ more) {b c : Block} (old : b ∈ m.blocks)
    (there : c ∈ next.blocks) (same : b.id = c.id) {e : Event} (new : e ∈ more) :
    e.creates c.id = false ∧ (e.frees c.id → b.live) := by
  have created := after.count_creates there
  have freed := after.freed c there
  rw [entries, List.countP_append, ← same] at created freed
  rw [before.count_creates old] at created
  rw [before.freed b old] at freed
  rw [← same]
  refine ⟨Bool.eq_false_iff.mpr fun creates => ?_, fun frees => Bool.of_not_eq_false fun dead => ?_⟩
  · have again : 0 < more.countP (·.creates b.id) := List.countP_pos_iff.mpr ⟨e, new, creates⟩
    omega
  · have again : 0 < more.countP (·.frees b.id) := List.countP_pos_iff.mpr ⟨e, new, frees⟩
    have once : (if c.live then 0 else 1) ≤ 1 := by split <;> omega
    rw [if_neg (Bool.eq_false_iff.mp dead)] at freed
    omega

/-- What takes no time adds events at the clock. Those about an old block end a life that is as long as the log says,
and a new block has none behind it. The number of a new block is new too, so that no event before can be about it. -/
theorem Dated.timeless (dated : m.Dated) (sound : m.Sound) (before : m.Told) (after : next.Told)
    (unaged : m.Unaged next) (clock : next.clock = m.clock) {more : List Event}
    (entries : next.events.entries = m.events.entries ++ more) (timed : ∀ e ∈ more, e.time = m.clock) :
    next.Dated := by
  intro c there e logged creates
  rw [entries] at logged ⊢
  rw [clock]
  rcases unaged.blocks c there with ⟨b, old, same, ages, lives⟩ | ⟨fresh, later⟩
  · have once (d : Event) (new : d ∈ more) := before.appended after entries old there same new
    have known : e ∈ m.events.entries := (List.mem_append.mp logged).resolve_right fun new => by
      rw [(once e new).1] at creates
      contradiction
    obtain ⟨alive, ended⟩ := dated b old e known (same ▸ creates)
    rw [← ages]
    refine ⟨fun live => alive (lives live), fun d told frees => ?_⟩
    rcases List.mem_append.mp told with earlier | new
    · exact ended d earlier (same ▸ frees)
    · rw [timed d new]
      exact alive ((once d new).2 frees)
  · have stamped (d : Event) (told : d ∈ m.events.entries ++ more) (about : d.creates c.id ∨ d.frees c.id) :
        d.time = m.clock := by
      refine (List.mem_append.mp told).elim (fun early => ?_) (timed d)
      obtain ⟨b, old, same⟩ := before.on_record early about
      exact absurd (sound.id_lt_next old) (Nat.not_lt_of_le (same ▸ later))
    rw [fresh, Nat.add_zero, stamped e logged (.inl creates)]
    exact ⟨fun _ => rfl, fun d told frees => (stamped d told (.inr frees)).symm⟩

/-- When time goes on, live blocks age with it, and the dead stay as old as they were. -/
theorem Dated.tick (dated : m.Dated) (told : m.Told) : m.tick.Dated := by
  intro c there e logged creates
  obtain ⟨b, old, rfl⟩ := List.mem_map.mp there
  rw [Block.age_id] at creates ⊢
  rw [Block.age_live]
  obtain ⟨alive, ended⟩ := dated b old e logged creates
  unfold Block.age
  cases live : b.live with
  | true =>
    rw [if_pos rfl]
    refine ⟨fun _ => congrArg (· + 1) (alive live), fun d known frees => ?_⟩
    have unfreed := told.freed b old
    rw [if_pos live] at unfreed
    exact absurd frees (List.countP_eq_zero.mp unfreed d known)
  | false => exact ⟨nofun, ended⟩

/-- Blocks only age when time goes on, and whatever takes no time is stamped with the same clock. So the lifetime of a
block is the time between the events that tell of its beginning and its end. -/
theorem Reachable.dated (reach : m.Reachable) (room : m.events.HasRoom) : m.Dated := by
  induction reach with
  | fresh capacity => exact fun _ member => nomatch member
  | @next m operation before _ ih =>
    have told (room : m.events.HasRoom) := Reachable.told before room
    have after := (Reachable.perform before operation).told room
    cases before.sound.performs operation with
    | reset => exact fun _ member => nomatch member
    | tick => exact (ih room).tick (told room)
    | pushes goes_on _ appends =>
      rw [appends.events] at room
      obtain ⟨room, entries⟩ := room.of_pushAll
      rw [← appends.events] at entries
      have unaged := (Primitives.perform before.sound goes_on).unaged.2 appends.clock
      exact (ih room).timeless before.sound (told room) after unaged appends.clock entries appends.timed

theorem filter_eq_singleton {α : Type} {p : α → Bool} {xs : List α} (once : xs.countP p = 1) :
    ∃ x ∈ xs, p x ∧ xs.filter p = [x] := by
  obtain ⟨x, only⟩ := List.length_eq_one_iff.mp (List.countP_eq_length_filter.symm.trans once)
  obtain ⟨member, holds⟩ := List.mem_filter.mp (only ▸ List.mem_singleton_self x)
  exact ⟨x, member, holds, only⟩

/-- As long as the log has room, a block is as old as its log says. It tells of the beginning of every block once. If
the block lives, that is as long ago as the block is old. If not, it tells once of its end, and the block was as old
then. -/
theorem lifetimes_match_log (reach : m.Reachable) (room : m.events.HasRoom) {b : Block} (member : b ∈ m.blocks) :
    ∃ c, m.events.entries.filter (·.creates b.id) = [c] ∧
      (b.live → c.time ≤ m.clock ∧ b.lifetime = m.clock - c.time) ∧
      (b.live = false → ∃ d, m.events.entries.filter (·.frees b.id) = [d] ∧ c.time ≤ d.time ∧
        b.lifetime = d.time - c.time) := by
  have told := reach.told room
  obtain ⟨c, logged, creates, only⟩ := filter_eq_singleton (told.count_creates member)
  obtain ⟨alive, ended⟩ := reach.dated room b member c logged creates
  refine ⟨c, only, fun live => ?_, fun dead => ?_⟩
  · have age := alive live
    omega
  · have freed := told.freed b member
    rw [if_neg (Bool.eq_false_iff.mp dead)] at freed
    obtain ⟨d, logged, frees, only⟩ := filter_eq_singleton freed
    have age := ended d logged frees
    refine ⟨d, only, ?_⟩
    omega

/-- A block that its owner took along when it left its scope, and one that is still there. -/
theorem lifetimes_match_log_of_cascade :
    ∃ (m : Memory) (b x : Block) (c d e : Event), m.Reachable ∧ m.events.HasRoom ∧ b ∈ m.blocks ∧ x ∈ m.blocks ∧
      b.live = false ∧ b.lifetime = 2 ∧ m.events.entries.filter (·.creates b.id) = [c] ∧
      m.events.entries.filter (·.frees b.id) = [d] ∧ b.lifetime = d.time - c.time ∧
      x.live ∧ x.lifetime = 1 ∧ m.events.entries.filter (·.creates x.id) = [e] ∧ x.lifetime = m.clock - e.time := by
  let m := (withCapacity 16).run [.createVariable "y" 4, .tick, .reset, .tick, .createPointer "p" .unique none, .tick,
    .allocate "*p" 8 .unique, .assignPointer 1 (some 2), .tick, .tick, .endScope, .createVariable "x" 4, .tick]
  have reach : m.Reachable := Reachable.run (.fresh 16) _
  have room : m.events.HasRoom := by unfold EventLog.HasRoom; decide +kernel
  have all : ∃ p b x, m.blocks = [p, b, x] ∧ b.live = false ∧ b.lifetime = 2 ∧ x.live ∧ x.lifetime = 1 :=
    ⟨_, _, _, rfl, by decide +kernel⟩
  obtain ⟨p, b, x, blocks, dead, two, live, one⟩ := all
  have freed : b ∈ m.blocks := by simp [blocks]
  have there : x ∈ m.blocks := by simp [blocks]
  obtain ⟨c, created, _, ended⟩ := lifetimes_match_log reach room freed
  obtain ⟨d, gone, _, aged⟩ := ended dead
  obtain ⟨e, begun, ages, _⟩ := lifetimes_match_log reach room there
  exact ⟨m, b, x, c, d, e, reach, room, freed, there, dead, two, created, gone, aged, live, one, begun, (ages live).2⟩

end Memory

end MemoryTrace
