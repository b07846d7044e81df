import Mathlib.Data.List.DropRight
import MemoryTrace.Proofs.Memory.Appending

namespace MemoryTrace

namespace EventLog

variable {log short long : EventLog}

theorem pushAll_capacity (log : EventLog) (events : List Event) : (log.pushAll events).capacity = log.capacity := by
  induction events generalizing log with
  | nil => rfl
  | cons e rest ih => exact ih (log.push e)

theorem length_pushAll_le (fits : log.entries.length ≤ log.capacity) (events : List Event) :
    (log.pushAll events).entries.length ≤ log.capacity := by
  induction events generalizing log with
  | nil => exact fits
  | cons e rest ih => exact ih (log.length_push_le e)

/-- What is pushed comes last. Only old entries are dropped. -/
theorem pushAll_sublist (log : EventLog) (events : List Event) :
    (log.pushAll events).entries.Sublist (log.entries ++ events) := by
  induction events generalizing log with
  | nil => rw [List.append_nil]; exact .refl _
  | cons e rest ih =>
    have pushed : (log.push e).entries.Sublist (log.entries ++ [e]) := List.drop_sublist ..
    rw [List.append_cons]
    exact (ih (log.push e)).trans (pushed.append_right rest)

/-- The short log is the end of the long one, as much of it as the short log keeps. -/
structure Trims (short long : EventLog) : Prop where
  capacity : short.capacity ≤ long.capacity
  entries : short.entries = long.entries.drop (long.entries.length - short.capacity)

namespace Trims

variable (trims : short.Trims long)

include trims

/-- Each log drops at most one entry, and the short log drops one when it is full, which is not after the long one. -/
theorem push (e : Event) : (short.push e).Trims (long.push e) := by
  refine ⟨trims.capacity, ?_⟩
  have bound := trims.capacity
  have kept : short.entries ++ [e] = (long.entries ++ [e]).drop (long.entries.length - short.capacity) := by
    rw [trims.entries, List.drop_append_of_le_length (Nat.sub_le ..)]
  have count : short.entries.length = long.entries.length - (long.entries.length - short.capacity) := by
    rw [trims.entries, List.length_drop]
  simp only [EventLog.push, kept, List.drop_drop, List.length_drop, List.length_append, List.length_singleton, count]
  congr 1
  omega

/-- The short log stays the end of the long one, whatever is pushed on both. -/
theorem pushAll (events : List Event) : (short.pushAll events).Trims (long.pushAll events) := by
  induction events generalizing short long with
  | nil => exact trims
  | cons e rest ih => exact ih (trims.push e)

theorem entries_eq_rtake :
    short.entries = long.entries.rtake (min short.capacity long.entries.length) := by
  rw [trims.entries, List.rtake]
  congr 1
  omega

end Trims

end EventLog

namespace Memory

variable {m small large : Memory}

/-- The same memory, but for a log that keeps fewer of the events. -/
structure Trims (small large : Memory) : Prop where
  same : small = large.withLog small.events
  events : small.events.Trims large.events

theorem trims_withCapacity {short long : Nat} (smaller : short ≤ long) :
    (withCapacity short).Trims (withCapacity long) :=
  ⟨rfl, smaller, List.drop_nil.symm⟩

/-- What pushes the same events on any log keeps the one log the end of the other. -/
theorem Trims.of_appends {f : Memory → Memory} {more : List Event} (appends : large.Appends f more)
    (trims : small.Trims large) : (f small).Trims (f large) := by
  have here : f small = (f large).withLog (small.events.pushAll more) := by rw [trims.same]; exact appends.blind _
  refine ⟨?_, ?_⟩
  · rw [here]
    rfl
  · rw [here, appends.events]
    exact trims.events.pushAll more

/-- An operation answers the same, and trims what it logs. -/
theorem Trims.perform (sound : large.Sound) (trims : small.Trims large) (operation : Operation) :
    (small.perform operation).1 = (large.perform operation).1 ∧
      (small.perform operation).2.Trims (large.perform operation).2 := by
  cases sound.performs operation with
  | reset => exact ⟨rfl, trims_withCapacity trims.events.capacity⟩
  | tick => exact ⟨rfl, congrArg Memory.tick trims.same, trims.events⟩
  | pushes _ reply appends =>
    refine ⟨?_, trims.of_appends appends⟩
    rw [trims.same]
    exact reply small.events

/-- A run on a small log and one on a large log go the same way, and the small log is the end of the large one. -/
theorem Trims.run (sound : large.Sound) (trims : small.Trims large) (operations : List Operation) :
    small.replies operations = large.replies operations ∧ (small.run operations).Trims (large.run operations) := by
  induction operations generalizing small large with
  | nil => exact ⟨rfl, trims⟩
  | cons first rest ih =>
    obtain ⟨reply, next⟩ := trims.perform sound first
    obtain ⟨replies, last⟩ := ih (sound.perform first) next
    exact ⟨congrArg₂ List.cons reply replies, last⟩

/-- The log keeps so many events at most. They are in the order of time, in the past, and about blocks that have been
created. -/
structure Logged (m : Memory) (c : Nat) : Prop where
  capacity : m.events.capacity = c
  fits : m.events.entries.length ≤ c
  ordered : m.events.entries.Pairwise (·.time ≤ ·.time)
  past : ∀ e ∈ m.events.entries, e.time ≤ m.clock
  known : ∀ e ∈ m.events.entries, m.Knows e.block

theorem logged_withCapacity (c : Nat) : (withCapacity c).Logged c :=
  ⟨rfl, Nat.zero_le c, .nil, nofun, nofun⟩

/-- New events are stamped with the clock, and no old one is later than that. -/
theorem Logged.of_appends {c : Nat} {f : Memory → Memory} {more : List Event} (appends : m.Appends f more)
    (logged : m.Logged c) : (f m).Logged c := by
  have events := appends.events
  have kept := EventLog.pushAll_sublist m.events more
  have each (P : Event → Prop) (old : ∀ e ∈ m.events.entries, P e) (new : ∀ e ∈ more, P e) :
      ∀ e ∈ (f m).events.entries, P e := by
    rw [events]
    exact fun e member => (List.mem_append.mp (kept.subset member)).elim (old e) (new e)
  have room : m.events.entries.length ≤ m.events.capacity := logged.capacity ▸ logged.fits
  refine ⟨?_, ?_, ?_, each _ (fun e old => ?_) (fun e new => ?_), each _ (fun e old => ?_) appends.known⟩
  · rw [events, EventLog.pushAll_capacity, logged.capacity]
  · rw [events, ← logged.capacity]
    exact EventLog.length_pushAll_le room more
  · rw [events]
    refine List.Pairwise.sublist kept (List.pairwise_append.mpr ⟨logged.ordered, ?_, fun e old d new => ?_⟩)
    · exact List.pairwise_of_forall_mem_list fun e before d after =>
        Nat.le_of_eq ((appends.timed e before).trans (appends.timed d after).symm)
    · exact appends.timed d new ▸ logged.past e old
  · exact appends.clock ▸ logged.past e old
  · exact Nat.le_of_eq ((appends.timed e new).trans appends.clock.symm)
  · exact ⟨(logged.known e old).1, Nat.lt_of_lt_of_le (logged.known e old).2 appends.grows⟩

/-- An operation keeps the log in the order of time. -/
theorem Logged.perform {c : Nat} (sound : m.Sound) (logged : m.Logged c) (operation : Operation) :
    (m.perform operation).2.Logged c := by
  cases sound.performs operation with
  | reset => exact logged.capacity ▸ logged_withCapacity _
  | tick => exact { logged with past := fun e member => Nat.le_succ_of_le (logged.past e member) }
  | pushes _ _ appends => exact logged.of_appends appends

theorem Logged.run {c : Nat} (sound : m.Sound) (logged : m.Logged c) (operations : List Operation) :
    (m.run operations).Logged c := by
  induction operations generalizing m with
  | nil => exact logged
  | cons first rest ih => exact ih (sound.perform first) (logged.perform sound first)

/-- The capacity of the log decides how much of it is kept, and nothing else. The log with the smaller capacity is the
end of the other. With any capacity, the log is in the order of time. -/
theorem capacity_only_trims :
    (∀ (c₁ c₂ : Nat) (operations : List Operation), c₁ ≤ c₂ → ∃ small large : Memory,
      (withCapacity c₁).run operations = small ∧ (withCapacity c₂).run operations = large ∧
      (withCapacity c₁).replies operations = (withCapacity c₂).replies operations ∧
      small = { large with events := small.events } ∧ small.leaks = large.leaks ∧ small.stats = large.stats ∧
      small.events.entries = large.events.entries.rtake (min c₁ large.events.entries.length)) ∧
    ∀ (c : Nat) (operations : List Operation), ((withCapacity c).run operations).Logged c := by
  refine ⟨fun c₁ c₂ operations smaller => ?_, fun c operations =>
    (logged_withCapacity c).run (sound_withCapacity c) operations⟩
  obtain ⟨replies, trims⟩ := (trims_withCapacity smaller).run (sound_withCapacity c₂) operations
  have capacity := ((logged_withCapacity c₁).run (sound_withCapacity c₁) operations).capacity
  refine ⟨_, _, rfl, rfl, replies, trims.same, ?_, ?_, ?_⟩
  · rw [trims.same]
    rfl
  · rw [trims.same]
    rfl
  · rw [trims.events.entries_eq_rtake, capacity]

/-- Of four events, one log keeps all, one the last three, and one none. -/
theorem capacity_only_trims_of_four_events :
    ∃ (empty three whole : Memory) (operations : List Operation), (withCapacity 0).run operations = empty ∧
      (withCapacity 3).run operations = three ∧ (withCapacity 5).run operations = whole ∧
      whole.events.entries.map (·.time) = [0, 0, 1, 1] ∧ whole.Logged 5 ∧
      three.events.entries = whole.events.entries.rtake 3 ∧ three = { whole with events := three.events } ∧
      empty.events.entries = [] ∧ empty.leaks = three.leaks ∧ three.leaks = [2] := by
  let operations : List Operation := [.createVariable "x" 4, .allocate "h" 8 .raw, .tick, .endScope, .reportLeaks]
  obtain ⟨trims, logged⟩ := capacity_only_trims
  obtain ⟨_, _, rfl, rfl, _, same, _, _, last⟩ := trims 3 5 operations (by decide)
  obtain ⟨_, _, rfl, rfl, _, _, leaks, _, nothing⟩ := trims 0 3 operations (by decide)
  refine ⟨_, _, _, operations, rfl, rfl, rfl, by decide +kernel, logged 5 operations, ?_, same, ?_, leaks,
    by decide +kernel⟩
  · exact last
  · rw [nothing, Nat.zero_min]
    exact List.rtake_zero _

end Memory

end MemoryTrace
