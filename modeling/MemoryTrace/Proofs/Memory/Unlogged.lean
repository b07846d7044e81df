import MemoryTrace.Proofs.Memory.Unwinding

namespace MemoryTrace.Memory

variable {m next : Memory}

/-- Both are refused, for the same reason, or both go through and leave memories that are alike. -/
inductive AlikeOutcome : Except MemoryError Memory → Except MemoryError Memory → Prop
  | ok {m next : Memory} (alike : m.Alike next) : AlikeOutcome (.ok m) (.ok next)
  | refused (e : MemoryError) : AlikeOutcome (.error e) (.error e)

namespace AlikeOutcome

/-- Both have asked the same and were told the same. -/
theorem ask {α : Type} (answer : Except MemoryError α) {f g : α → Except MemoryError Memory}
    (rest : ∀ x, AlikeOutcome (f x) (g x)) : AlikeOutcome (answer >>= f) (answer >>= g) := by
  cases answer with
  | ok x => exact rest x
  | error e => exact .refused e

/-- Outcomes are alike if they are alike in both parts. -/
protected theorem bind {x y : Except MemoryError Memory} {f g : Memory → Except MemoryError Memory}
    (first : AlikeOutcome x y) (rest : ∀ m next, m.Alike next → AlikeOutcome (f m) (g next)) :
    AlikeOutcome (x >>= f) (y >>= g) := by
  cases first with
  | ok alike => exact rest _ _ alike
  | refused e => exact .refused e

end AlikeOutcome

namespace Alike

/-- A creation that does not look at the log leaves memories that are alike. -/
theorem create {make : Memory → BlockId × Memory}
    (blind : ∀ (m : Memory) log, ∃ more, make { m with events := log } =
      ((make m).1, { (make m).2 with events := more })) (alike : m.Alike next) :
    (make next).1 = (make m).1 ∧ (make m).2.Alike (make next).2 := by
  obtain ⟨log, rfl⟩ := alike
  obtain ⟨more, same⟩ := blind m log
  rw [same]
  exact ⟨rfl, more, rfl⟩

variable (alike : m.Alike next)

include alike

/-- Memories stay alike whatever is logged in one or the other. -/
theorem record (kind : EventKind) (id : BlockId) (description other : String) :
    (m.record kind id description).Alike (next.record kind id other) := by
  obtain ⟨log, rfl⟩ := alike
  exact ⟨_, rfl⟩

theorem tick : m.tick.Alike next.tick := by
  obtain ⟨log, rfl⟩ := alike
  exact ⟨log, rfl⟩

theorem blocks : next.blocks = m.blocks := by
  obtain ⟨log, rfl⟩ := alike
  rfl

theorem liveBlock (id : BlockId) : next.liveBlock id = m.liveBlock id := by
  obtain ⟨log, rfl⟩ := alike
  rfl

theorem livePointer (id : BlockId) : next.livePointer id = m.livePointer id := by
  obtain ⟨log, rfl⟩ := alike
  rfl

theorem deallocate (id : BlockId) : AlikeOutcome (m.deallocate id) (next.deallocate id) := by
  unfold Memory.deallocate
  rw [alike.liveBlock]
  refine .ask _ fun b => .ok ?_
  split
  · exact alike.release id
  · exact alike.free b _

theorem deallocateIfAny (target : Option BlockId) :
    AlikeOutcome (m.deallocateIfAny target) (next.deallocateIfAny target) := by
  cases target with
  | none => exact .ok alike
  | some id => exact alike.deallocate id

theorem leaveTarget (p : Pointer) : (m.leaveTarget p).Alike (next.leaveTarget p) := by
  unfold Memory.leaveTarget
  split
  · exact alike.release _
  · exact alike

theorem reaim (b : Block) (p : Pointer) (target : Option BlockId) :
    (m.reaim b p target).Alike (next.reaim b p target) := by
  have left := alike.leaveTarget p
  have aimed := left.update b.id (·.aim target)
  unfold Memory.reaim
  dsimp only
  rw [left.blocks]
  split
  · exact aimed.record ..
  · split
    · exact (aimed.update ..).record ..
    · exact aimed.record ..

/-- An assignment comes to the same, whatever the log. -/
theorem assignPointer (pointer : BlockId) (target : Option BlockId) :
    AlikeOutcome (m.assignPointer pointer target) (next.assignPointer pointer target) := by
  have checked : next.checkTarget target = m.checkTarget target := by
    obtain ⟨log, rfl⟩ := alike
    rfl
  unfold Memory.assignPointer
  rw [alike.livePointer, checked]
  refine .ask _ fun held => .ask _ fun _ => .ok ?_
  split
  · exact alike
  · exact alike.reaim ..

theorem pushCopy (b : Block) (p : Pointer) (name : String) : (m.pushCopy b p name).Alike (next.pushCopy b p name) := by
  obtain ⟨log, rfl⟩ := alike
  unfold Memory.pushCopy
  dsimp only
  split <;> exact ⟨_, rfl⟩

/-- The copy of a shared pointer has the same number in both, if there is one. -/
theorem copyShared (source : BlockId) (name : String) :
    (∃ e, m.copyShared source name = .error e ∧ next.copyShared source name = .error e) ∨
      ∃ id copied other, m.copyShared source name = .ok (id, copied) ∧
        next.copyShared source name = .ok (id, other) ∧ copied.Alike other := by
  have number : next.nextId = m.nextId := by
    obtain ⟨log, rfl⟩ := alike
    rfl
  unfold Memory.copyShared
  rw [alike.livePointer]
  cases m.livePointer source with
  | error e => exact .inl ⟨e, rfl, rfl⟩
  | ok held =>
    obtain ⟨b, p⟩ := held
    by_cases shared : p.discipline = .shared
    · refine .inr ⟨m.nextId, _, _, ?_, ?_, alike.pushCopy b p name⟩
      · simp only [bind, Except.bind, shared, if_true]
        rfl
      · simp only [bind, Except.bind, shared, if_true, number]
        rfl
    · refine .inl ⟨.wrongDiscipline source .shared, ?_, ?_⟩
      · simp only [bind, Except.bind, shared, if_false]
        rfl
      · simp only [bind, Except.bind, shared, if_false]
        rfl

/-- A move is refused for the same reason, or leaves memories that differ in nothing but the log. -/
theorem moveUnique (source dest : BlockId) :
    AlikeOutcome (m.moveUnique source dest) (next.moveUnique source dest) := by
  have owned (id : BlockId) : next.uniqueTarget id = m.uniqueTarget id := by
    obtain ⟨log, rfl⟩ := alike
    rfl
  unfold Memory.moveUnique
  rw [alike.liveBlock, alike.liveBlock, owned, owned]
  split
  · exact .refused _
  · refine .ask _ fun giver => .ask _ fun taker => .ask _ fun moved => .ask _ fun previous => ?_
    exact (alike.deallocateIfAny _).bind fun _ _ freed => .ok (((freed.update ..).update ..).record ..)

end Alike

/-- The memories are the same, but for the log. If that is `logged`, the log is the same as well. -/
def Resembles (logged : Prop) (m next : Memory) : Prop :=
  ∃ log, (logged → log = m.events) ∧ next = { m with events := log }

namespace Resembles

variable {logged : Prop}

theorem refl (m : Memory) : m.Resembles logged m := ⟨m.events, fun _ => rfl, rfl⟩

theorem of_alike (unlogged : ¬ logged) (alike : m.Alike next) : m.Resembles logged next := by
  obtain ⟨log, rfl⟩ := alike
  exact ⟨log, fun kept => absurd kept unlogged, rfl⟩

/-- Either there is no difference at all, or the log does not count. -/
theorem eq_or_alike (same : m.Resembles logged next) : next = m ∨ ¬ logged ∧ m.Alike next := by
  obtain ⟨log, kept, rfl⟩ := same
  by_cases counts : logged
  · obtain rfl := kept counts
    exact .inl rfl
  · exact .inr ⟨counts, log, rfl⟩

/-- What does not look at the log keeps the resemblance. -/
theorem lift (same : m.Resembles logged next) {f : Memory → Memory}
    (blind : ∀ m next : Memory, m.Alike next → (f m).Alike (f next)) : (f m).Resembles logged (f next) := by
  rcases same.eq_or_alike with rfl | ⟨unlogged, alike⟩
  · exact refl _
  · exact of_alike unlogged (blind m next alike)

theorem tick (same : m.Resembles logged next) : m.tick.Resembles logged next.tick := same.lift fun _ _ => Alike.tick

/-- Memories that resemble each other report the same leaks. -/
theorem reportLeaks (same : m.Resembles logged next) : m.reportLeaks.Resembles logged next.reportLeaks :=
  same.lift fun m next alike => (Alike.reportLeaks m).symm.trans (alike.trans (.reportLeaks next))

end Resembles

end MemoryTrace.Memory
