import MemoryTrace.Proofs.Recording.Limit
import MemoryTrace.Proofs.Session.FailingLine

namespace MemoryTrace

open Script

/-- The snapshot is of a line of the script, or of none. -/
def Snapshot.Within (shot : Snapshot) (script : Text) : Prop :=
  ∀ number, shot.line = some number → 1 ≤ number ∧ number ≤ script.lines.length

theorem Script.codeLine_within {script : Text} {line : CodeLine} (member : line ∈ codeLines script) :
    1 ≤ line.number ∧ line.number ≤ script.lines.length := by
  obtain ⟨before, after, split⟩ := List.append_of_mem member
  obtain ⟨positive, ⟨text, found, _⟩, _⟩ := codeLines_cut split
  have bound := (List.getElem?_eq_some_iff.mp found).1
  exact ⟨positive, by omega⟩

theorem lastSnapshot_within (script : Text) (memory : Memory) (truncated : Bool) :
    (lastSnapshot memory none truncated).Within script := fun _ named => nomatch named

/-- A recording that ends names only lines of the script. -/
theorem Recording.Ended.within_script {recording : Recording} {limit : Nat} {shots : List Snapshot}
    {cause : Option ScriptError} {stopped : Bool} {t : Session} {script : Text}
    (ended : recording.Ended limit shots cause stopped t) (before : ∀ shot ∈ shots, shot.Within script)
    (last : (lastSnapshot t.memory cause stopped).Within script) :
    ∀ shot ∈ recording.history.snapshots, shot.Within script := by
  rw [ended.snapshots]
  refine List.forall_mem_append.mpr ⟨before, fun shot member => ?_⟩
  split at member
  · exact List.mem_singleton.mp member ▸ last
  · contradiction

namespace Session

variable {s t : Session} {script : Text}

theorem shots_within (s : Session) (script : Text) : ∀ shot ∈ s.shots script, shot.Within script := by
  rintro shot member number named
  obtain ⟨i, there⟩ := List.mem_iff_getElem?.mp member
  obtain ⟨line, t, at_line, _, rfl⟩ := getElem?_shots.mp there
  obtain rfl := Option.some.inj named
  exact codeLine_within (List.mem_of_getElem? at_line)

/-- An error is that of a line of code. -/
theorem errorSnapshot_within {e : ScriptError}
    (failed : (codeLines script).forM Action.executeCodeLine s = .error (.script e) t) (truncated : Bool) :
    (lastSnapshot t.memory (some e) truncated).Within script := by
  rintro number named
  obtain rfl := Option.some.inj named
  obtain ⟨before, line, after, u, split, _, fails⟩ := Action.forM_eq_error failed
  rw [(Action.executeCodeLine_eq_error fails).1]
  exact codeLine_within (split ▸ List.mem_append_right _ List.mem_cons_self)

/-- Where a snapshot of a recording is of a line, that is a line of the script. -/
theorem record_within {limit : Nat} {recording : Recording} (recorded : s.record script limit = .ok recording) :
    ∀ shot ∈ recording.history.snapshots, shot.Within script := by
  by_cases fits : room (s.shots script) ≤ limit
  · rw [record_of_fits fits] at recorded
    split at recorded
    · obtain rfl := Except.ok.inj recorded
      exact (History.close_ended fits none false _).within_script (shots_within s script) (lastSnapshot_within script _ _)
    · rename_i e t failed
      obtain rfl := Except.ok.inj recorded
      exact (History.close_ended fits (some e) false t).within_script (shots_within s script)
        (errorSnapshot_within failed false)
    · contradiction
  · obtain ⟨k, t, kept, stopped, ended⟩ := record_of_no_room (Nat.not_le.mp fits)
    obtain rfl := Except.ok.inj (stopped.symm.trans recorded)
    exact ended.within_script (fun shot member => shots_within s script shot (List.mem_of_mem_take member))
      (lastSnapshot_within script _ _)

end Session

end MemoryTrace
