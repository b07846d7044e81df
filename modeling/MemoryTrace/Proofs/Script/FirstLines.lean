import MemoryTrace.Proofs.Script.Layout

namespace MemoryTrace

namespace Text

/-- The first lines of a text, with their line ends. -/
def firstLines : Nat → Text → Text
  | 0, _ => []
  | count + 1, text =>
    match text.dropWhile (· ≠ '\n') with
    | [] => text
    | ends :: rest => text.takeWhile (· ≠ '\n') ++ ends :: firstLines count rest

section Line

variable {line : Text} (whole : '\n' ∉ line)

include whole

theorem not_ends_of_whole : ∀ c ∈ line, decide (c = '\n') = false :=
  fun _ member => decide_eq_false fun same => whole (same ▸ member)

theorem length_lines_of_whole : line.lines.length ≤ 1 := by
  unfold lines
  rw [List.splitOnP_eq_singleton (not_ends_of_whole whole)]
  cases line with
  | nil => exact Nat.zero_le 1
  | cons c rest => exact Nat.le_refl 1

/-- The first line ends at the first line end. -/
theorem lines_whole_cons (rest : Text) :
    lines (line ++ '\n' :: rest) = (beforeEnd? "\r" line).getD line :: lines rest := by
  obtain ⟨first, more, split⟩ := List.exists_cons_of_ne_nil (List.splitOnP_ne_nil (fun c => decide (c = '\n')) rest)
  unfold lines
  rw [List.splitOnP_append_cons_of_forall_mem (not_ends_of_whole whole) '\n' (by decide) rest, split]
  dsimp only
  rw [List.dropLast_cons_cons, List.getLast?_cons_cons, List.map_cons]
  split <;> rfl

theorem firstLines_of_whole (count : Nat) : firstLines (count + 1) line = line := by
  rw [firstLines, dropWhile_of_absent whole]

theorem firstLines_whole_cons (count : Nat) (rest : Text) :
    firstLines (count + 1) (line ++ '\n' :: rest) = line ++ '\n' :: firstLines count rest := by
  rw [firstLines, dropWhile_ne_append whole, takeWhile_ne_append whole]

end Line

/-- The lines of a text that is cut behind a line are the first of its lines. -/
theorem lines_firstLines (count : Nat) (text : Text) : (firstLines count text).lines = text.lines.take count := by
  induction count generalizing text with
  | zero => rfl
  | succ count ih =>
    by_cases ended : '\n' ∈ text
    · obtain ⟨line, rest, rfl, whole⟩ := List.eq_append_cons_of_mem ended
      rw [firstLines_whole_cons whole, lines_whole_cons whole, lines_whole_cons whole, List.take_succ_cons, ih]
    · have one := length_lines_of_whole ended
      rw [firstLines_of_whole ended, List.take_of_length_le (by omega)]

end Text

namespace Script

open Text

/-- The line of code that a numbered line is. -/
def codeLine? (line : Nat × Text) : Option CodeLine :=
  if (codeOf line.2).isEmpty then none else some { number := line.1, text := line.2, code := codeOf line.2 }

theorem codeLines_eq (script : Text) : codeLines script = (numberedLines script).filterMap codeLine? := rfl

/-- A line of code keeps its number, and has code. -/
theorem codeLine?_eq_some {number : Nat} {text : Text} {line : CodeLine} (made : codeLine? (number, text) = some line) :
    line.number = number ∧ codeOf text ≠ [] := by
  unfold codeLine? at made
  split at made
  · contradiction
  · rename_i code
    rw [← Option.some.inj made]
    exact ⟨rfl, by simpa using code⟩

theorem getElem?_numberedLines {script text : Text} {i number : Nat}
    (there : (numberedLines script)[i]? = some (number, text)) : number = i + 1 ∧ script.lines[i]? = some text := by
  simp only [numberedLines, List.getElem?_map, List.getElem?_zipIdx, Option.map_map, Option.map_eq_some_iff,
    Function.comp_apply, Prod.mk.injEq] at there
  obtain ⟨_, found, rfl, rfl⟩ := there
  exact ⟨Nat.add_comm 1 i, found⟩

theorem numberedLines_firstLines (count : Nat) (script : Text) :
    numberedLines (firstLines count script) = (numberedLines script).take count := by
  unfold numberedLines
  rw [lines_firstLines]
  refine List.ext_getElem? fun i => ?_
  simp only [List.getElem?_map, List.getElem?_zipIdx, List.getElem?_take]
  split <;> rfl

/-- A script that is cut behind a line keeps the code of the lines that are left. -/
theorem codeLines_firstLines (count : Nat) (script : Text) :
    codeLines (firstLines count script) = ((numberedLines script).take count).filterMap codeLine? := by
  rw [codeLines_eq, numberedLines_firstLines]

/-- The number of a line of code is that of a line of the script that is not blank without its comments. The code
above it is that of the script cut before that line, and with it that of the script cut behind it. The lines between
that code and this line have no code. -/
theorem codeLines_cut {script : Text} {before after : List CodeLine} {line : CodeLine}
    (split : codeLines script = before ++ line :: after) :
    1 ≤ line.number ∧ (∃ text, script.lines[line.number - 1]? = some text ∧ codeOf text ≠ []) ∧
      codeLines (firstLines (line.number - 1) script) = before ∧
      codeLines (firstLines line.number script) = before ++ [line] := by
  rw [codeLines_eq] at split
  obtain ⟨upper, lower, numbered, rfl, later⟩ := List.filterMap_eq_append_iff.mp split
  obtain ⟨skipped, ⟨number, text⟩, rest, rfl, nothing, made, _⟩ := List.filterMap_eq_cons_iff.mp later
  have numbered : numberedLines script = (upper ++ skipped) ++ (number, text) :: rest := by simpa using numbered
  have above : (upper ++ skipped).filterMap codeLine? = upper.filterMap codeLine? := by
    rw [List.filterMap_append, List.filterMap_eq_nil_iff.mpr nothing, List.append_nil]
  have there : (numberedLines script)[(upper ++ skipped).length]? = some (number, text) := by
    rw [numbered, List.getElem?_append_right (Nat.le_refl _), Nat.sub_self, List.getElem?_cons_zero]
  obtain ⟨rfl, found⟩ := getElem?_numberedLines there
  obtain ⟨same, code⟩ := codeLine?_eq_some made
  rw [same, codeLines_firstLines, codeLines_firstLines, Nat.add_sub_cancel, numbered]
  refine ⟨Nat.succ_pos _, ⟨text, found, code⟩, ?_, ?_⟩
  · rw [List.take_left, above]
  · rw [List.take_length_add_append, List.take_succ_cons, List.take_zero, List.filterMap_append, above,
      List.filterMap_cons_some made, List.filterMap_nil]

end Script

end MemoryTrace
