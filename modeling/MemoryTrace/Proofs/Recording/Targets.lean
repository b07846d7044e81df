import MemoryTrace.Proofs.Session.Reach
import MemoryTrace.Recording.Record
import MemoryTrace.Viewer.Pane.Stack

namespace MemoryTrace

open Script Viewer

theorem History.snapshots_push {h next : History} {snapshot : Snapshot}
    (pushed : h.push snapshot = .ok next) : next.snapshots = h.snapshots ++ [snapshot] := by
  unfold push at pushed
  dsimp only at pushed
  split at pushed
  · rw [← Except.ok.inj pushed]
  · contradiction

/-- Every snapshot of the history has a memory with the property. -/
def History.Shows (P : Memory → Prop) (h : History) : Prop := ∀ snapshot ∈ h.snapshots, P snapshot.memory

theorem History.Shows.push {P : Memory → Prop} {h next : History} {snapshot : Snapshot}
    (shows : h.Shows P) (pushed : h.push snapshot = .ok next) (new : P snapshot.memory) :
    next.Shows P := by
  intro other member
  rw [History.snapshots_push pushed] at member
  rcases List.mem_append.mp member with old | last
  · exact shows other old
  · obtain rfl := List.mem_singleton.mp last
    exact new

theorem observeStep_shows {P : Memory → Prop} (step : Step) (seen : History × Bool)
    (new : P step.memory) (shows : seen.1.Shows P) : (observeStep step seen).value.1.Shows P := by
  unfold observeStep
  split
  · rename_i pushed
    exact shows.push pushed new
  · exact shows

theorem lastSnapshot_memory (memory : Memory) (error : Option ScriptError) (truncated : Bool) :
    (lastSnapshot memory error truncated).memory = memory := by
  cases error <;> rfl

/-- A recording shows nothing but memories with a property that operations keep. The last snapshot may not fit, and
then the history stays as it was. -/
theorem Session.record_shows {P : Memory → Prop} (kept : Memory.Kept P) {s : Session}
    (before : P s.memory) {script : Text} {limit : Nat} {recording : Recording}
    (recorded : s.record script limit = .ok recording) : recording.history.Shows P := by
  have ran := runSteps_keeps (Q := fun seen => seen.1.Shows P) kept (codeLines script)
    (fun step seen => observeStep_shows step seen) ({ limit }, false) s nofun before
  unfold record executeStepwise at recorded
  generalize runSteps observeStep (codeLines script) ({ limit }, false) s = run at ran recorded
  obtain ⟨⟨history, truncated⟩, result, session⟩ := run
  have last : ∃ error,
      history.push (lastSnapshot session.memory error truncated) = .ok recording.history ∨
        recording.history = history := by
    cases result with
    | ok =>
      refine ⟨none, ?_⟩
      rw [← Except.ok.inj recorded]
      dsimp only
      split
      · rename_i pushed
        exact .inl pushed
      · exact .inr rfl
    | error failure =>
      cases failure with
      | script e =>
        refine ⟨some e, ?_⟩
        rw [← Except.ok.inj recorded]
        dsimp only
        split
        · rename_i pushed
          exact .inl pushed
        · exact .inr rfl
      | crash c => contradiction
  obtain ⟨error, pushed | same⟩ := last
  · refine ran.2.push pushed ?_
    rw [lastSnapshot_memory]
    exact ran.1
  · rw [same]
    exact ran.2

/-- In a sound registry the pane never draws a pointer as dangling. -/
theorem targetSpan_of_sound {m : Memory} (sound : m.Sound) {b : Block} (member : b ∈ m.blocks) :
    (targetSpan m b).2 = .ofColor Palette.orange := by
  unfold targetSpan
  split
  · rfl
  · rename_i id aimed
    obtain ⟨t, target, rfl, live⟩ := sound.targetsLive b member id aimed
    simp [sound.block?_of_mem target, Option.filter, live]

theorem exists_ok_of_any {ε α : Type} {x : Except ε α} {p : α → Bool} (some_ok : x.toOption.any p) :
    ∃ a, x = .ok a ∧ p a := by
  cases x with
  | error e => contradiction
  | ok a => exact ⟨a, rfl, some_ok⟩

/-- Whatever operations were performed, every pointer, dead or alive, is null or points to a live
block. So no snapshot of any recorded script has a pointer to draw that dangles. -/
theorem targets_stay_live :
    (∀ m : Memory, m.Reachable → ∀ b ∈ m.blocks, ∀ p, b.pointer? = some p →
      p.target = none ∨ ∃ t ∈ m.blocks, p.target = some t.id ∧ t.live) ∧
    (∀ s : Session, s.Reachable → ∀ script limit recording, s.record script limit = .ok recording →
      ∀ snapshot ∈ recording.history.snapshots, ∀ b ∈ snapshot.memory.blocks, ∀ id : BlockId,
        targetSpan snapshot.memory b ≠ (s!"-> #{id} (dangling)", (Style.ofColor Palette.red).bolded)) := by
  constructor
  · intro m reach b member p holds
    cases aimed : p.target with
    | none => exact .inl rfl
    | some id =>
      obtain ⟨t, target, rfl, live⟩ := reach.sound.targetsLive b member id
        (Block.target?_eq_some.mpr ⟨p, holds, aimed⟩)
      exact .inr ⟨t, target, rfl, live⟩
  · intro s reach script limit recording recorded snapshot shown b member id dangling
    have kept : Memory.Kept Memory.Sound := fun m operation sound => sound.perform operation
    have sound := Session.record_shows kept reach.memory_reachable.sound recorded snapshot shown
    have drawn := targetSpan_of_sound sound member
    have different : (Style.ofColor Palette.red).bolded ≠ .ofColor Palette.orange := by decide
    rw [dangling] at drawn
    exact different drawn

/-- The pointer that a freed block leaves behind, and one that a recorded script draws before the
block is freed. -/
theorem targets_stay_live_after_delete :
    (∃ m : Memory, m.Reachable ∧ ∃ b ∈ m.blocks, ∃ p, b.pointer? = some p ∧
      (p.target = none ∨ ∃ t ∈ m.blocks, p.target = some t.id ∧ t.live)) ∧
    (∃ recording, ({} : Session).record
        "int main() \x7b\n  int* p = new int;\n  delete p;\n\x7d".toList 1000 = .ok recording ∧
      ∃ snapshot ∈ recording.history.snapshots, ∃ b ∈ snapshot.memory.blocks, b.target? = some 2 ∧
        targetSpan snapshot.memory b ≠ ("-> #2 (dangling)", (Style.ofColor Palette.red).bolded)) := by
  constructor
  · let m := (Memory.withCapacity 8).run
      [.createPointer "p" .raw none, .allocate "p" 4 .raw, .assignPointer 1 (some 2), .deallocate 2]
    have reach : m.Reachable := Memory.Reachable.run (.fresh 8) _
    have some_pointer : m.blocks.any (·.pointer?.isSome) := by decide
    obtain ⟨b, member, pointer⟩ := List.any_eq_true.mp some_pointer
    obtain ⟨p, holds⟩ := Option.isSome_iff_exists.mp pointer
    exact ⟨m, reach, b, member, p, holds, targets_stay_live.1 m reach b member p holds⟩
  · have drawn : (({} : Session).record
        "int main() \x7b\n  int* p = new int;\n  delete p;\n\x7d".toList 1000).toOption.any
        fun recording => recording.history.snapshots.any fun snapshot =>
          snapshot.memory.blocks.any (·.target? = some 2) := by decide +kernel
    obtain ⟨recording, recorded, drawn⟩ := exists_ok_of_any drawn
    obtain ⟨snapshot, shown, drawn⟩ := List.any_eq_true.mp drawn
    obtain ⟨b, member, aimed⟩ := List.any_eq_true.mp drawn
    exact ⟨recording, recorded, snapshot, shown, b, member, of_decide_eq_true aimed,
      targets_stay_live.2 {} .fresh _ _ recording recorded snapshot shown b member 2⟩

end MemoryTrace
