import MemoryTrace.Proofs.Recording.Lines
import MemoryTrace.Proofs.Viewer.Watching

namespace MemoryTrace.Viewer

open Script

/-- The current snapshot of a viewer on a recording is of a line of the script, or of none. -/
theorem Watched.current_within {s : Session} {script : Text} {limit : Nat} {recording : Recording}
    (recorded : s.record script limit = .ok recording) {outcome : String} {v : Viewer}
    (watched : Watched (ofRecording recording script outcome) v) {shot : Snapshot}
    (current : v.history.current? = some shot) : shot.Within script := by
  have kept : v.history.snapshots = recording.history.snapshots := watched.sameRecording.snapshots
  exact Session.record_within recorded shot (kept ▸ List.mem_of_getElem? current)

/-- The row of the current line stays in the box, and the line does too, though the offset is clamped at both ends of
the script. Where the end of the script clamps the offset, the last line of the box is that of the script. -/
theorem SourceScroll.follow_current (scroll : SourceScroll) {height lineCount number : Nat} (tall : 3 ≤ height)
    (first : 1 ≤ number) (last : number ≤ lineCount) :
    ∃ offset row, scroll.follow height lineCount (some number) = { offset, row := some row } ∧
      offset ≤ number - 1 ∧ number - 1 < offset + (height - 2) ∧ offset ≤ lineCount - (height - 2) ∧
      row < height - 2 := by
  unfold follow
  rw [visibleHeight_of_tall tall]
  dsimp only
  rw [if_pos ⟨first, last⟩]
  generalize scroll.row.getD ((height - 2) / 2) = wanted
  exact ⟨_, _, rfl, by omega, by omega, by omega, by omega⟩

/-- A row between the left and the right border of a box. -/
def framed (focused : Bool) (width : Nat) (row : Row) : Row :=
  let edge : Cell := { symbol := '│', style := borderStyle focused }
  (edge :: fit (width - 2) {} row ++ [edge]).take width

section Rows

variable {α : Type} {xs : List α} {x : α} {i n : Nat}

theorem getElem?_fit (room : i < n) (there : xs[i]? = some x) (filler : α) : (fit n filler xs)[i]? = some x := by
  have taken : (xs.take n)[i]? = some x := by rw [List.getElem?_take, if_pos room, there]
  rw [fit, List.getElem?_append_left (List.getElem?_eq_some_iff.mp taken).1, taken]

theorem getElem?_window (offset : Nat) (room : i < n) : (window offset n xs)[i]? = xs[offset + i]? := by
  rw [window, List.getElem?_take, if_pos room, List.getElem?_drop]

/-- The rows inside a box begin below its upper border. -/
theorem getElem?_box {height : Nat} {inside : List Row} {row : Row} (room : i < height - 2)
    (there : inside[i]? = some row) (title : String) (focused : Bool) (width : Nat) :
    (box title focused width height inside)[i + 1]? = some (framed focused width row) := by
  have fitted := getElem?_fit room there (blankRow (width - 2))
  have inner : i < (fit (height - 2) (blankRow (width - 2)) inside).length := (length_fit ..).symm ▸ room
  unfold box
  dsimp only
  rw [List.getElem?_take, if_pos (by omega), List.cons_append, List.getElem?_cons_succ,
    List.getElem?_append_left (by rwa [List.length_map]), List.getElem?_map, fitted]
  rfl

end Rows

/-- Every line of the script has a line in the pane. -/
theorem length_sourceLines (script : Text) (current : Option Nat) (failed : Bool) :
    (sourceLines script current failed).length = script.lines.length := by
  rw [sourceLines, numberedLines, List.length_map, List.length_map, List.length_zipIdx]

theorem getElem?_sourceLines {script text : Text} {i : Nat} (there : script.lines[i]? = some text) (failed : Bool) :
    (sourceLines script (some (i + 1)) failed)[i]? = some (currentLine (i + 1) text failed) := by
  have numbered : (numberedLines script)[i]? = some (i + 1, text) := by
    simp [numberedLines, there, Nat.add_comm]
  rw [sourceLines, List.getElem?_map, numbered, Option.map_some, if_pos rfl]

/-- A draw of a script shows its current line, wherever the pane was scrolled to. -/
theorem drawSource_current {script text : Text} {i height : Nat} (there : script.lines[i]? = some text)
    (tall : 3 ≤ height) (scroll : SourceScroll) (failed focused : Bool) (width : Nat) :
    ∃ offset row rows,
      drawSource script (some (i + 1)) failed focused scroll width height = ({ offset, row := some row }, rows) ∧
        offset ≤ i ∧ i < offset + (height - 2) ∧ offset ≤ script.lines.length - (height - 2) ∧ row < height - 2 ∧
        rows[i - offset + 1]? = some (framed focused width ((currentLine (i + 1) text failed).row (width - 2))) := by
  have last : i + 1 ≤ script.lines.length := (List.getElem?_eq_some_iff.mp there).1
  obtain ⟨offset, row, follows, above, below, within, inside⟩ := scroll.follow_current tall (Nat.le_add_left 1 i) last
  rw [Nat.add_sub_cancel] at above below
  let shown := window offset (height - 2) (sourceLines script (some (i + 1)) failed)
  have room : i - offset < height - 2 := by omega
  have drawn : shown[i - offset]? = some (currentLine (i + 1) text failed) := by
    rw [getElem?_window offset room, Nat.add_sub_cancel' above, getElem?_sourceLines there]
  refine ⟨offset, row, box " Source Code " focused width height (shown.map (·.row (width - 2))), ?_, above, below,
    within, inside, ?_⟩
  · rw [drawSource, length_sourceLines, follows, visibleHeight_of_tall tall]
  · refine getElem?_box room ?_ " Source Code " focused width
    rw [List.getElem?_map, drawn, Option.map_some]

/-- The line that is about to run is always on screen. However a viewer on a recording has come to its current snapshot,
a draw of the source pane keeps the row of its line in the box and scrolls no further than the script goes. That line is
in the rows drawn, highlighted. -/
theorem current_line_is_drawn {s : Session} {script : Text} {limit : Nat} {recording : Recording}
    (recorded : s.record script limit = .ok recording) {outcome : String} {v : Viewer}
    (watched : Watched (ofRecording recording script outcome) v) {shot : Snapshot}
    (current : v.history.current? = some shot) {number : Nat} (at_line : shot.line = some number) {height : Nat}
    (tall : 3 ≤ height) (failed focused : Bool) (width : Nat) :
    ∃ offset row rows text,
      drawSource v.source shot.line failed focused v.sourceScroll width height = ({ offset, row := some row }, rows) ∧
        offset ≤ number - 1 ∧ number - 1 < offset + (height - 2) ∧ offset ≤ script.lines.length - (height - 2) ∧
        row < height - 2 ∧ script.lines[number - 1]? = some text ∧
        rows[number - 1 - offset + 1]? =
          some (framed focused width ((currentLine number text failed).row (width - 2))) := by
  obtain ⟨first, last⟩ := watched.current_within recorded current number at_line
  obtain ⟨i, rfl⟩ : ∃ i, number = i + 1 := ⟨number - 1, by omega⟩
  have same : v.source = script := watched.sameRecording.source
  have found := List.getElem?_eq_getElem (Nat.lt_of_succ_le last)
  obtain ⟨offset, row, rows, drawn, above, below, within, inside, shown⟩ :=
    drawSource_current found tall v.sourceScroll failed focused width
  rw [same, at_line, Nat.add_sub_cancel]
  exact ⟨offset, row, rows, _, drawn, above, below, within, inside, found, shown⟩

/-- The last line fails. Its row was moved down in a high box, and then there is room for one row only. -/
theorem current_line_is_drawn_of_error :
    ∃ (script : Text) (recording : Recording) (v : Viewer) (shot : Snapshot) (rows : List Row),
      ({} : Session).record script 10000 = .ok recording ∧ Watched (ofRecording recording script "") v ∧
      v.history.current? = some shot ∧ shot.line = some 3 ∧ v.sourceScroll = { offset := 0, row := some 8 } ∧
      drawSource v.source shot.line true true v.sourceScroll 20 3 = ({ offset := 2, row := some 0 }, rows) ∧
      script.lines[2]? = some "  delete p;".toList ∧
      rows[1]? = some (framed true 20 ((currentLine 3 "  delete p;".toList true).row 18)) := by
  let script := "int main() \x7b\n  int a;\n  delete p;\n".toList
  obtain ⟨recording, recorded, at_last⟩ : ∃ recording, ({} : Session).record script 10000 = .ok recording ∧
      (recording.history.jumpToEnd.current?.bind (·.line)) = some 3 := by
    have some_error : (({} : Session).record script 10000).toOption.any
        fun recording => recording.history.jumpToEnd.current?.bind (·.line) = some 3 := by decide +kernel
    obtain ⟨recording, recorded, at_last⟩ := exists_ok_of_any some_error
    exact ⟨recording, recorded, of_decide_eq_true at_last⟩
  obtain ⟨shot, current, at_line⟩ := Option.bind_eq_some_iff.mp at_last
  let atEnd := (ofRecording recording script "").press .enter true
  let drawn : Viewer :=
    { atEnd with sourceScroll := (drawSource script (some 3) true true atEnd.sourceScroll 20 16).1 }
  have watched : Watched (ofRecording recording script "") (drawn.press .up true) :=
    ((Watched.opened.pressed .enter true).sourceDrawn (some 3) true true 20 16).pressed .up true
  obtain ⟨offset, row, rows, text, shown, above, below, within, inside, found, highlighted⟩ :=
    current_line_is_drawn recorded watched current at_line (by decide : 3 ≤ 3) true true 20
  obtain rfl : offset = 2 := by omega
  obtain rfl : row = 0 := by omega
  obtain rfl : text = "  delete p;".toList := Option.some.inj (found.symm.trans (by decide))
  exact ⟨script, recording, drawn.press .up true, shot, rows, recorded, watched, current, at_line, rfl, shown, found,
    highlighted⟩

end MemoryTrace.Viewer
