import Mathlib.Data.Nat.Find
import MemoryTrace.Proofs.Recording.Targets
import MemoryTrace.Proofs.Session.Stepwise

namespace MemoryTrace

open Script

/-- The snapshot of the memory before a line. -/
def Step.snapshot (step : Step) : Snapshot :=
  { memory := step.memory, line := some step.line.number, text := step.line.text.toName }

/-- The room that snapshots take. -/
def room (shots : List Snapshot) : Nat := total Snapshot.estimatedSize shots

theorem room_append (first second : List Snapshot) : room (first ++ second) = room first + room second :=
  total_append _ first second

theorem room_eq_total (shots : List Snapshot) : room shots = total id (shots.map Snapshot.estimatedSize) := by
  induction shots with
  | nil => rfl
  | cons shot rest ih => rw [List.map_cons, total_cons, ← ih]; rfl

/-- There is a longest prefix that a limit leaves room for. -/
theorem exists_longest_prefix (shots : List Snapshot) (limit : Nat) :
    ∃ k ≤ shots.length, room (shots.take k) ≤ limit ∧ ∀ j ≤ shots.length, room (shots.take j) ≤ limit → j ≤ k := by
  have empty : room (shots.take 0) ≤ limit := Nat.zero_le limit
  exact ⟨Nat.findGreatest (fun k => room (shots.take k) ≤ limit) shots.length, Nat.findGreatest_le _,
    Nat.findGreatest_spec (P := fun k => room (shots.take k) ≤ limit) (Nat.zero_le _) empty,
    fun j within fits => Nat.le_findGreatest within fits⟩

/-- The snapshot behind that prefix does not fit. -/
theorem full_of_longest {shots : List Snapshot} {limit k : Nat} (short : k < shots.length)
    (longest : ∀ j ≤ shots.length, room (shots.take j) ≤ limit → j ≤ k) :
    limit < room (shots.take k) + shots[k].estimatedSize := by
  have next : room (shots.take (k + 1)) = room (shots.take k) + shots[k].estimatedSize := by
    rw [List.take_succ_eq_append_getElem short, room_append]
    rfl
  rw [← next]
  by_contra fits
  have further := longest (k + 1) short (Nat.not_lt.mp fits)
  omega

/-- How a recording ends that kept the snapshots before some lines. It keeps its last snapshot if there is still room
for that, and is truncated if there is not, or if it was stopped. -/
structure Recording.Ended (recording : Recording) (limit : Nat) (shots : List Snapshot) (cause : Option ScriptError)
    (stopped : Bool) (t : Session) : Prop where
  error : recording.error = cause
  session : recording.session = t
  snapshots : recording.history.snapshots = shots ++
    if room shots + (lastSnapshot t.memory cause stopped).estimatedSize ≤ limit then
      [lastSnapshot t.memory cause stopped]
    else []
  truncated : recording.truncated ↔ stopped ∨ limit < room shots + (lastSnapshot t.memory cause stopped).estimatedSize
  usage : recording.history.usage = room recording.history.snapshots
  within : recording.history.usage ≤ limit

namespace History

/-- A history with more snapshots. -/
def keep (h : History) (shots : List Snapshot) : History :=
  { h with snapshots := h.snapshots ++ shots, usage := h.usage + room shots }

theorem keep_nil (h : History) : h.keep [] = h := by
  rw [keep, List.append_nil]
  rfl

theorem keep_keep (h : History) (first second : List Snapshot) :
    (h.keep first).keep second = h.keep (first ++ second) := by
  simp only [keep, room_append, List.append_assoc, Nat.add_assoc]

variable {h : History} {shot : Snapshot}

/-- A snapshot that fits is kept. -/
theorem push_of_fits (fits : h.usage + shot.estimatedSize ≤ h.limit) : h.push shot = .ok (h.keep [shot]) := if_pos fits

theorem push_of_full (full : h.limit < h.usage + shot.estimatedSize) : ∃ e, h.push shot = .error e :=
  ⟨_, if_neg (Nat.not_le.mpr full)⟩

/-- Ends a recording. There may be no room for the last snapshot. -/
def close (h : History) (error : Option ScriptError) (truncated : Bool) (session : Session) : Recording :=
  match h.push (lastSnapshot session.memory error truncated) with
  | .ok history => { history, error, truncated, session }
  | .error _ => { history := h, error, truncated := true, session }

/-- A recording is ended by a last snapshot, if there is room. -/
theorem close_ended {limit : Nat} {shots : List Snapshot} (fits : room shots ≤ limit) (error : Option ScriptError)
    (stopped : Bool) (session : Session) :
    ((keep { limit } shots).close error stopped session).Ended limit shots error stopped session := by
  have usage : (keep { limit } shots).usage = room shots := Nat.zero_add _
  unfold close
  generalize made : lastSnapshot session.memory error stopped = last
  by_cases enough : room shots + last.estimatedSize ≤ limit
  · rw [push_of_fits (by rw [usage]; exact enough), keep_keep]
    have used : (keep { limit } (shots ++ [last])).usage = room (shots ++ [last]) := Nat.zero_add _
    refine ⟨rfl, rfl, ?_, ?_, used, ?_⟩
    · rw [made, if_pos enough]
      rfl
    · rw [made]
      exact (or_iff_left (Nat.not_lt.mpr enough)).symm
    · rw [used, room_append]
      exact enough
  · obtain ⟨e, refused⟩ :=
      @push_of_full (keep { limit } shots) last (by rw [usage]; exact Nat.not_le.mp enough)
    rw [refused]
    refine ⟨rfl, rfl, ?_, ?_, usage, usage ▸ fits⟩
    · rw [made, if_neg enough, List.append_nil]
      rfl
    · rw [made]
      exact iff_of_true rfl (.inr (Nat.not_le.mp enough))

end History

/-- A step is kept, or stops the run. -/
theorem observeStep_eq (step : Step) (h : History) (truncated : Bool) :
    observeStep step (h, truncated) =
      match h.push step.snapshot with
      | .ok history => .yield (history, truncated)
      | .error _ => .done (h, true) := rfl

/-- Steps with room for their snapshots are all seen. -/
theorem watch_observeStep {h : History} {truncated : Bool} (steps : List Step)
    (fits : h.usage + room (steps.map Step.snapshot) ≤ h.limit) :
    watch observeStep steps (h, truncated) = .yield (h.keep (steps.map Step.snapshot), truncated) := by
  induction steps generalizing h with
  | nil =>
    rw [List.map_nil, History.keep_nil]
    rfl
  | cons step rest ih =>
    have whole : room ((step :: rest).map Step.snapshot) =
        step.snapshot.estimatedSize + room (rest.map Step.snapshot) := rfl
    have used : (h.keep [step.snapshot]).usage = h.usage + step.snapshot.estimatedSize := rfl
    have limit : (h.keep [step.snapshot]).limit = h.limit := rfl
    rw [watch, observeStep_eq, History.push_of_fits (by omega)]
    dsimp only
    rw [ih (by omega), History.keep_keep]
    rfl

theorem observeStep_of_full {h : History} {truncated : Bool} {step : Step}
    (full : h.limit < h.usage + step.snapshot.estimatedSize) : observeStep step (h, truncated) = .done (h, true) := by
  obtain ⟨e, refused⟩ := History.push_of_full full
  rw [observeStep_eq, refused]

namespace Session

variable {s : Session} {script : Text} {limit : Nat}

/-- The snapshots of a run before each of its lines, where there is room for all of them. -/
def shots (s : Session) (script : Text) : List Snapshot := (steps (codeLines script) s).map Step.snapshot

/-- Each snapshot is of a line of code and shows the memory that the lines before it made. -/
theorem getElem?_shots {i : Nat} {shot : Snapshot} :
    (s.shots script)[i]? = some shot ↔ ∃ line t, (codeLines script)[i]? = some line ∧
      ((codeLines script).take i).forM Action.executeCodeLine s = .ok () t ∧
      shot = { memory := t.memory, line := some line.number, text := line.text.toName } := by
  rw [shots, List.getElem?_map, Option.map_eq_some_iff]
  constructor
  · rintro ⟨⟨line, memory⟩, at_step, rfl⟩
    obtain ⟨at_line, t, ran, rfl⟩ := getElem?_steps.mp at_step
    exact ⟨line, t, at_line, ran, rfl⟩
  · rintro ⟨line, t, at_line, ran, rfl⟩
    exact ⟨{ line, memory := t.memory }, getElem?_steps.mpr ⟨at_line, t, ran, rfl⟩, rfl⟩

/-- A recording is a stepwise run with an observer, ended by a last snapshot. -/
theorem record_eq (s : Session) (script : Text) (limit : Nat) :
    s.record script limit =
      let run := s.executeStepwise script observeStep ({ limit }, false)
      match run.result with
      | .ok () => .ok (run.seen.1.close none run.seen.2 run.session)
      | .error (.script e) => .ok (run.seen.1.close (some e) run.seen.2 run.session)
      | .error (.crash c) => .error c := rfl

/-- With room for the snapshots before all lines, the run is not stopped. -/
theorem record_of_fits (fits : room (s.shots script) ≤ limit) :
    s.record script limit =
      match (codeLines script).forM Action.executeCodeLine s with
      | .ok _ t => .ok ((History.keep { limit } (s.shots script)).close none false t.popAll.finish)
      | .error (.script e) t => .ok ((History.keep { limit } (s.shots script)).close (some e) false t)
      | .error (.crash c) _ => .error c := by
  have watched : watch observeStep (steps (codeLines script) s) ({ limit }, false) =
      .yield (History.keep { limit } (s.shots script), false) :=
    watch_observeStep _ (by rw [Nat.zero_add]; exact fits)
  rw [record_eq, executeStepwise, runSteps_watched watched]
  cases (codeLines script).forM Action.executeCodeLine s with
  | ok _ t => rfl
  | error e t => cases e <;> rfl

/-- The first snapshot without room stops the run before its line. -/
theorem record_of_full {k : Nat} {shot : Snapshot} (there : (s.shots script)[k]? = some shot)
    (fits : room ((s.shots script).take k) ≤ limit)
    (full : limit < room ((s.shots script).take k) + shot.estimatedSize) :
    ∃ t recording, ((codeLines script).take k).forM Action.executeCodeLine s = .ok () t ∧ shot.memory = t.memory ∧
      s.record script limit = .ok recording ∧ recording.Ended limit ((s.shots script).take k) none true t := by
  obtain ⟨step, at_step, rfl⟩ := Option.map_eq_some_iff.mp (List.getElem?_map .. ▸ there)
  have taken : (s.shots script).take k = ((steps (codeLines script) s).take k).map Step.snapshot := List.map_take.symm
  rw [taken] at fits full ⊢
  have watched : watch observeStep ((steps (codeLines script) s).take k) ({ limit }, false) = .yield (_, false) :=
    watch_observeStep _ (by rw [Nat.zero_add]; exact fits)
  have stopped : observeStep step (History.keep { limit } _, false) = .done (_, true) :=
    observeStep_of_full (by rw [History.keep, Nat.zero_add]; exact full)
  obtain ⟨t, ran, ends⟩ := runSteps_stopped watched at_step stopped
  obtain ⟨_, u, again, memory⟩ := getElem?_steps.mp at_step
  obtain rfl : t = u := (EStateM.Result.ok.inj (ran.symm.trans again)).2
  exact ⟨t, _, ran, memory, by rw [record_eq, executeStepwise, ends], History.close_ended fits none true t⟩

/-- Without room for the snapshots before all lines, the run is stopped. -/
theorem record_of_no_room (full : limit < room (s.shots script)) :
    ∃ k t recording, s.record script limit = .ok recording ∧
      recording.Ended limit ((s.shots script).take k) none true t := by
  obtain ⟨k, within, fits, longest⟩ := exists_longest_prefix (s.shots script) limit
  rcases Nat.lt_or_eq_of_le within with short | rfl
  · obtain ⟨t, recording, _, _, recorded, ended⟩ :=
      record_of_full (List.getElem?_eq_getElem short) fits (full_of_longest short longest)
    exact ⟨k, t, recording, recorded, ended⟩
  · rw [List.take_length] at fits
    exact absurd fits (Nat.not_le.mpr full)

/-- A recording that is not truncated had room for the snapshots before all lines. -/
theorem fits_of_whole {recording : Recording} (recorded : s.record script limit = .ok recording)
    (whole : recording.truncated = false) : room (s.shots script) ≤ limit := by
  by_contra full
  obtain ⟨_, _, _, stopped, ended⟩ := record_of_no_room (Nat.not_le.mp full)
  obtain rfl := Except.ok.inj (stopped.symm.trans recorded)
  have truncated := ended.truncated.mpr (.inl rfl)
  rw [whole] at truncated
  contradiction

/-- Recordings with room for the snapshots before all lines end alike. -/
theorem record_ends {recording : Recording} (fits : room (s.shots script) ≤ limit)
    (recorded : s.record script limit = .ok recording) :
    ∃ error session, ∀ limit, room (s.shots script) ≤ limit →
      ∃ recording, s.record script limit = .ok recording ∧
        recording.Ended limit (s.shots script) error false session := by
  rw [record_of_fits fits] at recorded
  split at recorded
  · rename_i t ran
    exact ⟨none, t.popAll.finish, fun limit fits =>
      ⟨_, by rw [record_of_fits fits, ran], History.close_ended fits none false _⟩⟩
  · rename_i e t ran
    exact ⟨some e, t, fun limit fits =>
      ⟨_, by rw [record_of_fits fits, ran], History.close_ended fits (some e) false _⟩⟩
  · contradiction

end Session

/-- The snapshots before the lines of a run show what was there before each line. With less room than for all of them,
a recording keeps the longest prefix that fits, and stops before the next line: there is no error then, and the memory
is that of the next snapshot. Otherwise it ends as the full recording does. The last snapshot is kept as well if there
is still room for it, and the usage is always that of what is kept. -/
theorem record_keeps_prefix {s : Session} {script : Text} {full : Recording}
    (recorded : s.record script largestWord = .ok full) (whole : full.truncated = false) :
    ∃ shots last, full.history.snapshots = shots ++ [last] ∧
      (∀ i shot, shots[i]? = some shot ↔ ∃ line t, (codeLines script)[i]? = some line ∧
        ((codeLines script).take i).forM Action.executeCodeLine s = .ok () t ∧
        shot = { memory := t.memory, line := some line.number, text := line.text.toName }) ∧
      ∀ limit, ∃ (recording : Recording) (k : Nat), s.record script limit = .ok recording ∧
        k ≤ shots.length ∧ room (shots.take k) ≤ limit ∧ (∀ j ≤ shots.length, room (shots.take j) ≤ limit → j ≤ k) ∧
        (k < shots.length → recording.error = none ∧ recording.truncated ∧
          ((codeLines script).take k).forM Action.executeCodeLine s = .ok () recording.session ∧
          shots[k]?.map (·.memory) = some recording.session.memory ∧
          let stop := lastSnapshot recording.session.memory none true
          recording.history.snapshots =
            shots.take k ++ if room (shots.take k) + stop.estimatedSize ≤ limit then [stop] else []) ∧
        (k = shots.length → recording.error = full.error ∧ recording.session = full.session ∧
          (recording.truncated ↔ limit < room shots + last.estimatedSize) ∧ recording.history.snapshots =
            shots ++ if room shots + last.estimatedSize ≤ limit then [last] else []) ∧
        recording.history.usage = room recording.history.snapshots ∧ recording.history.usage ≤ limit := by
  have room_for_all := Session.fits_of_whole recorded whole
  obtain ⟨error, session, ends⟩ := Session.record_ends room_for_all recorded
  obtain ⟨_, again, full_ended⟩ := ends _ room_for_all
  obtain rfl := Except.ok.inj (recorded.symm.trans again)
  have last_fits : room (s.shots script) + (lastSnapshot session.memory error false).estimatedSize ≤ largestWord := by
    have untruncated := full_ended.truncated.not.mp (Bool.not_eq_true _ ▸ whole)
    exact Nat.not_lt.mp (not_or.mp untruncated).2
  refine ⟨s.shots script, lastSnapshot session.memory error false, ?_, fun _ _ => Session.getElem?_shots,
    fun limit => ?_⟩
  · rw [full_ended.snapshots, if_pos last_fits]
  · obtain ⟨k, within, fits, longest⟩ := exists_longest_prefix (s.shots script) limit
    rcases Nat.lt_or_eq_of_le within with short | rfl
    · obtain ⟨t, recording, ran, memory, stopped, ended⟩ :=
        Session.record_of_full (List.getElem?_eq_getElem short) fits (full_of_longest short longest)
      obtain rfl := ended.session
      have next : (s.shots script)[k]?.map (·.memory) = some recording.session.memory := by
        rw [List.getElem?_eq_getElem short, Option.map_some, memory]
      refine ⟨recording, k, stopped, within, fits, longest, fun _ => ?_, fun all => absurd all (Nat.ne_of_lt short),
        ended.usage, ended.within⟩
      exact ⟨ended.error, ended.truncated.mpr (.inl rfl), ran, next, ended.snapshots⟩
    · rw [List.take_length] at fits
      obtain ⟨recording, recorded, ended⟩ := ends limit fits
      have truncated : recording.truncated ↔
          limit < room (s.shots script) + (lastSnapshot session.memory error false).estimatedSize :=
        ended.truncated.trans (or_iff_right Bool.false_ne_true)
      refine ⟨recording, _, recorded, within, by rwa [List.take_length], longest, fun less => absurd less (lt_irrefl _),
        fun _ => ?_, ended.usage, ended.within⟩
      exact ⟨ended.error.trans full_ended.error.symm, ended.session.trans full_ended.session.symm, truncated,
        ended.snapshots⟩

/-- Four lines, with room for the snapshots before two of them. -/
theorem record_keeps_prefix_of_two_lines :
    ∃ (script : Text) (full recording : Recording), ({} : Session).record script largestWord = .ok full ∧
      full.truncated = false ∧ ({} : Session).record script 400 = .ok recording ∧ recording.error = none ∧
      recording.truncated ∧ ((codeLines script).take 2).forM Action.executeCodeLine {} = .ok () recording.session ∧
      full.history.snapshots[2]?.map (·.memory) = some recording.session.memory := by
  let sizes (full : Recording) : List Nat := full.history.snapshots.map Snapshot.estimatedSize
  obtain ⟨script, some_full⟩ : ∃ script, (({} : Session).record script largestWord).toOption.any
      fun full => full.truncated = false ∧ sizes full = [148, 155, 536, 574, 646] :=
    ⟨"int main() \x7b\n  int* p = new int;\n  delete p;\n\x7d".toList, by decide +kernel⟩
  obtain ⟨full, recorded, facts⟩ := exists_ok_of_any some_full
  obtain ⟨whole, measured⟩ := of_decide_eq_true facts
  obtain ⟨shots, last, split, _, cuts⟩ := record_keeps_prefix recorded whole
  obtain ⟨recording, k, cut, within, fits, longest, stopped, _⟩ := cuts 400
  have measured : full.history.snapshots.map Snapshot.estimatedSize = [148, 155, 536, 574] ++ [646] := measured
  rw [split, List.map_append] at measured
  obtain ⟨four, -⟩ := List.append_inj' measured rfl
  have length : shots.length = 4 := by rw [← List.length_map Snapshot.estimatedSize, four]; rfl
  have rooms (j : Nat) : room (shots.take j) = total id ([148, 155, 536, 574].take j) := by
    rw [room_eq_total, List.map_take, four]
  have only_two : ∀ j ≤ 4, 2 ≤ j → total id ([148, 155, 536, 574].take j) ≤ 400 → j = 2 := by decide
  have two := longest 2 (by omega) (by rw [rooms]; decide)
  obtain rfl := only_two k (by omega) two (by rw [← rooms]; exact fits)
  obtain ⟨error, truncated, ran, next, _⟩ := stopped (by omega)
  refine ⟨script, full, recording, recorded, whole, cut, error, truncated, ran, ?_⟩
  rw [split, List.getElem?_append_left (by omega)]
  exact next

end MemoryTrace
