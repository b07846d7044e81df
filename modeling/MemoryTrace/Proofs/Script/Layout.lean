import Mathlib.Data.List.TakeWhile
import MemoryTrace.Proofs.Text.Scanning
import MemoryTrace.Script.CodeLine

namespace MemoryTrace

namespace Text

variable {tail : Text}

/-- Whether a text begins with a mark does not depend on characters that the mark has not. -/
theorem isPrefixOf?_append {mark : List Char} (absent : ∀ c ∈ tail, c ∉ mark) (text : Text) :
    mark.isPrefixOf? (text ++ tail) = (mark.isPrefixOf? text).map (· ++ tail) := by
  induction mark generalizing text with
  | nil => simp only [nil_isPrefixOf?, Option.map_some]
  | cons m rest ih =>
    cases text with
    | nil =>
      cases tail with
      | nil => rfl
      | cons c more =>
        have other : m ≠ c := fun same => absent c List.mem_cons_self (same ▸ List.mem_cons_self)
        rw [List.nil_append, cons_isPrefixOf?_cons, if_neg (by simpa using other)]
        rfl
    | cons c more =>
      rw [List.cons_append, cons_isPrefixOf?_cons, cons_isPrefixOf?_cons]
      split
      · exact ih (fun d member there => absent d member (List.mem_cons_of_mem _ there)) more
      · rfl

/-- A mark is not found in what it shares no character with, nor across its border. -/
theorem around?_append {mark : String} (nonempty : mark ≠ "") (absent : ∀ c ∈ tail, c ∉ mark.toList) (text : Text) :
    around? mark (text ++ tail) = (around? mark text).map fun sides => (sides.1, sides.2 ++ tail) := by
  induction text with
  | nil =>
    have missing : around? mark tail = none := by
      cases found : around? mark tail with
      | none => rfl
      | some sides =>
        obtain ⟨c, more, same⟩ := List.exists_cons_of_ne_nil (fun empty => nonempty (String.toList_eq_nil_iff.mp empty))
        have inside := around?_isSome.mp (Option.isSome_of_eq_some found)
        have member : c ∈ mark.toList := same ▸ List.mem_cons_self
        exact absurd member (absent c (inside.subset member))
    rw [List.nil_append, missing]
    simp [around?, nonempty]
  | cons c rest ih =>
    have start := isPrefixOf?_append absent (c :: rest)
    rw [List.cons_append] at start ⊢
    unfold around?
    rw [start]
    cases mark.toList.isPrefixOf? (c :: rest) with
    | some after => rfl
    | none =>
      dsimp only [Option.map_none]
      rw [ih, Option.map_map, Option.map_map]
      rfl

theorem trim_append_blanks (blank : ∀ c ∈ tail, isBlank c) (text : Text) : trim (text ++ tail) = trim text := by
  have dropped : tail.dropWhile isBlank = [] := List.dropWhile_eq_nil_iff.mpr blank
  have ends (text : Text) : trimEnd (text ++ tail) = trimEnd text := by
    have reversed : tail.reverse.dropWhile isBlank = [] :=
      List.dropWhile_eq_nil_iff.mpr fun c member => blank c (List.mem_reverse.mp member)
    simp [trimEnd, dropEndWhile, List.dropWhile_append, reversed]
  rw [trim, trimStart, List.dropWhile_append]
  split
  · rename_i empty
    rw [dropped, trim, trimStart, List.isEmpty_iff.mp empty]
  · exact ends _

end Text

namespace Script

open Text

/-- What is left of a line without its comments, trimmed. -/
def codeOf (line : Text) : Text := (stripComments line).trim

/-- The code of some lines with their numbers, the first being `first`. Lines without code count. -/
def codesFrom (first : Nat) (lines : List Text) : List (Nat × Text) :=
  (lines.zipIdx first).filterMap fun line => if (codeOf line.1).isEmpty then none else some (line.2, codeOf line.1)

/-- The code of a script with the numbers of its lines. -/
def codes (script : Text) : List (Nat × Text) := (codeLines script).map fun line => (line.number, line.code)

/-- The stretches between line ends. -/
def stretches (script : Text) : List Text := script.splitOnP (· = '\n')

section Line

variable {tail : Text} (blank : ∀ c ∈ tail, isBlank c)

include blank

theorem absent_of_blank {mark : List Char} (solid : mark.any isBlank = false) : ∀ c ∈ tail, c ∉ mark :=
  fun c member there => List.any_eq_false.mp solid c there (blank c member)

/-- Blanks behind a line are part of its last comment, or they are left. -/
theorem stripComments_append (line : Text) :
    stripComments (line ++ tail) = stripComments line ∨ stripComments (line ++ tail) = stripComments line ++ tail := by
  have marked {mark : String} (nonempty : mark ≠ "") (solid : mark.toList.any isBlank = false) (text : Text) :
      around? mark (text ++ tail) = (around? mark text).map fun sides => (sides.1, sides.2 ++ tail) :=
    around?_append nonempty (absent_of_blank blank solid) text
  have before : beforeLineComment (line ++ tail) = beforeLineComment line ∨
      beforeLineComment (line ++ tail) = beforeLineComment line ++ tail := by
    unfold beforeLineComment
    rw [marked (by decide) (by decide)]
    cases around? "//" line with
    | some sides => exact .inl rfl
    | none => exact .inr rfl
  unfold stripComments
  rcases before with same | longer
  · exact .inl (by rw [same])
  · refine .inr ?_
    dsimp only
    rw [longer, marked (by decide) (by decide)]
    cases around? "/*" (beforeLineComment line) with
    | none => rfl
    | some opened =>
      dsimp only [Option.map_some]
      rw [marked (by decide) (by decide)]
      cases around? "*/" opened.2 with
      | none => rfl
      | some closed => exact (List.append_assoc ..).symm

theorem codeOf_append (line : Text) : codeOf (line ++ tail) = codeOf line := by
  rcases stripComments_append blank line with same | longer
  · rw [codeOf, same, codeOf]
  · rw [codeOf, longer, trim_append_blanks blank, codeOf]

end Line

theorem codesFrom_append (first : Nat) (before after : List Text) :
    codesFrom first (before ++ after) = codesFrom first before ++ codesFrom (first + before.length) after := by
  rw [codesFrom, List.zipIdx_append, List.filterMap_append]
  rfl

/-- Only the code of a line matters. -/
theorem codesFrom_map {f : Text → Text} (same : ∀ line, codeOf (f line) = codeOf line) (first : Nat)
    (lines : List Text) : codesFrom first (lines.map f) = codesFrom first lines := by
  rw [codesFrom, List.zipIdx_map, List.filterMap_map]
  simp only [Function.comp_def, Prod.map, same, id_eq]
  rfl

theorem codesFrom_later (first more : Nat) (lines : List Text) :
    codesFrom (more + first) lines = (codesFrom first lines).map fun code => (code.1 + more, code.2) := by
  rw [codesFrom, ← List.map_snd_add_zipIdx_eq_zipIdx, List.filterMap_map, codesFrom, List.map_filterMap]
  refine List.filterMap_congr fun line _ => ?_
  simp only [Function.comp_apply, Prod.map, id_eq]
  split <;> rfl

/-- A carriage return behind a line makes no difference to its code. -/
theorem codeOf_withoutReturn (line : Text) : codeOf ((beforeEnd? "\r" line).getD line) = codeOf line := by
  cases ended : beforeEnd? "\r" line with
  | none => rfl
  | some before =>
    obtain rfl := List.isSuffixOf?_eq_some_iff_append_eq.mp ended
    exact (codeOf_append (List.all_eq_true.mp (by decide)) before).symm

/-- Where the lines of a script differ from its stretches, no code is. A carriage return in front of a line end is a
blank like any other. -/
theorem codes_eq (script : Text) : codes script = codesFrom 1 (stretches script) := by
  have numbered : codes script = codesFrom 1 script.lines := by
    rw [codes, codeLines, numberedLines, List.filterMap_map, List.map_filterMap, codesFrom]
    refine List.filterMap_congr fun line _ => ?_
    dsimp only [Function.comp_apply, codeOf]
    rw [apply_ite (Option.map _)]
    rfl
  obtain ⟨before, last, split⟩ :=
    (List.eq_nil_or_concat' (stretches script)).resolve_left (List.splitOnP_ne_nil _ script)
  unfold stretches at split ⊢
  rw [numbered, lines]
  rw [split, List.getLast?_concat, List.dropLast_concat]
  cases last with
  | nil =>
    rw [codesFrom_append, codesFrom_map codeOf_withoutReturn]
    exact (List.append_nil _).symm
  | cons c rest =>
    dsimp only
    rw [codesFrom_append, codesFrom_map codeOf_withoutReturn, List.length_map, codesFrom_append]

theorem length_stretches (script : Text) : (stretches script).length = script.count '\n' + 1 := by
  unfold stretches
  induction script with
  | nil => rfl
  | cons c rest ih =>
    rw [List.splitOnP_cons_eq_if_modifyHead, List.count_cons]
    by_cases ends : c = '\n'
    · simp [ends, ih]
    · simp [ends, ih]

/-- The code of two scripts joined is that of both, the second with higher line numbers. -/
theorem codes_join (a b : Text) :
    codes (a ++ '\n' :: b) = codes a ++ (codes b).map fun code => (code.1 + (a.count '\n' + 1), code.2) := by
  have split : stretches (a ++ '\n' :: b) = stretches a ++ stretches b := List.splitOnP_append_cons a b (by decide)
  rw [codes_eq, split, codesFrom_append, length_stretches, Nat.add_comm 1, codesFrom_later, ← codes_eq, ← codes_eq]

end Script

end MemoryTrace
