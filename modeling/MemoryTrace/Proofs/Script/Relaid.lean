import MemoryTrace.Proofs.Script.Layout

namespace MemoryTrace

namespace Script

open Text

/-- The line with blanks at its start or its end, or with a comment behind it. A slash at its end would take part in
that comment. -/
inductive Restyled (line : Text) : Text → Prop
  | indent {blanks : Text} (blank : ∀ c ∈ blanks, isBlank c) : Restyled line (blanks ++ line)
  | pad {blanks : Text} (blank : ∀ c ∈ blanks, isBlank c) : Restyled line (line ++ blanks)
  | comment (whole : line.getLast? ≠ some '/') (remark : Text) : Restyled line (line ++ ("//".toList ++ remark))

/-- The number of a line after a line was put in behind line `k`. -/
def later (k n : Nat) : Nat := if n ≤ k then n else n + 1

/-- One change to the stretches of a script, and where it moves its lines. A line may be put in anywhere, also into the
place behind the last line end. A line that changes keeps the carriage return that ends it. -/
inductive Relaid : List Text → List Text → (Nat → Nat) → Prop
  | insert (before after : List Text) {line : Text} (noCode : codeOf line = []) :
      Relaid (before ++ after) (before ++ line :: after) (later before.length)
  | fill (before : List Text) {line : Text} (noCode : codeOf line = []) :
      Relaid (before ++ [[]]) (before ++ [line]) id
  | restyle (before after : List Text) {line styled ending : Text} (style : Restyled line styled)
      (ends : ending = [] ∨ ending = ['\r']) :
      Relaid (before ++ (line ++ ending) :: after) (before ++ (styled ++ ending) :: after) id

/-- The second script is the first after any number of changes to its layout. What was on line `n` is now on line
`moved n`. -/
inductive LaidOut (script : Text) : Text → (Nat → Nat) → Prop
  | same : LaidOut script script id
  | change {old relaid : Text} {moved shifted : Nat → Nat} (laid : LaidOut script old moved)
      (change : Relaid (stretches old) (stretches relaid) shifted) : LaidOut script relaid (shifted ∘ moved)

/-- Blanks in front of a line make no difference to its code. -/
theorem codeOf_prepend {blanks : Text} (blank : ∀ c ∈ blanks, isBlank c) (line : Text) :
    codeOf (blanks ++ line) = codeOf line := by
  have marked {mark : String} (nonempty : mark ≠ "") (solid : mark.toList.any isBlank = false) (text : Text) :
      around? mark (blanks ++ text) = (around? mark text).map fun sides => (blanks ++ sides.1, sides.2) :=
    around?_prepend nonempty (absent_of_blank blank solid) text
  have before : beforeLineComment (blanks ++ line) = blanks ++ beforeLineComment line := by
    unfold beforeLineComment
    rw [marked (by decide) (by decide)]
    cases around? "//" line with
    | some sides => rfl
    | none => rfl
  have stripped : stripComments (blanks ++ line) = blanks ++ stripComments line := by
    unfold stripComments
    rw [before]
    dsimp only
    rw [marked (by decide) (by decide)]
    cases around? "/*" (beforeLineComment line) with
    | none => rfl
    | some opened =>
      dsimp only [Option.map_some]
      cases around? "*/" opened.2 with
      | none => rfl
      | some closed => exact List.append_assoc ..
  rw [codeOf, stripped, trim_blanks_append blank, codeOf]

/-- A comment is not seen, wherever the first one is. The mark does not begin inside the line, which has no slash at
its end. -/
theorem beforeLineComment_comment {line : Text} (whole : line.getLast? ≠ some '/') (remark : Text) :
    beforeLineComment (line ++ ("//".toList ++ remark)) = beforeLineComment line := by
  unfold beforeLineComment
  cases found : around? "//" line with
  | some sides =>
    obtain ⟨rfl, first⟩ := (around?_eq_some_iff (by decide)).mp found
    have still : around? "//" (sides.1 ++ ("//".toList ++ sides.2) ++ ("//".toList ++ remark)) =
        some (sides.1, sides.2 ++ ("//".toList ++ remark)) :=
      (around?_eq_some_iff (by decide)).mpr ⟨by simp only [List.append_assoc], first⟩
    rw [still]
  | none =>
    have missing : ¬ "//".toList <:+: line := by
      rw [← around?_isSome, found]
      exact Bool.false_ne_true
    have first : ¬ "//".toList <:+: line ++ ['/'] := by
      intro inside
      rcases List.infix_concat_iff.mp inside with atEnd | inside
      · obtain ⟨start, ends⟩ := atEnd
        have ends : start ++ ['/'] ++ ['/'] = line ++ ['/'] := by rw [← ends, List.append_assoc]; rfl
        obtain rfl := List.append_cancel_right ends
        exact whole List.getLast?_concat
      · exact missing inside
    have now : around? "//" (line ++ ("//".toList ++ remark)) = some (line, remark) :=
      (around?_eq_some_iff (by decide)).mpr ⟨rfl, first⟩
    rw [now]

/-- A line that is restyled keeps its code. -/
theorem Restyled.codeOf {line styled : Text} (style : Restyled line styled) :
    Script.codeOf styled = Script.codeOf line := by
  cases style with
  | indent blank => exact codeOf_prepend blank line
  | pad blank => exact codeOf_append blank line
  | comment whole remark =>
    rw [Script.codeOf, stripComments, beforeLineComment_comment whole, ← stripComments, Script.codeOf]

/-- The code of the first line comes first, if it has any. -/
theorem codesFrom_cons (first : Nat) (line : Text) (rest : List Text) :
    codesFrom first (line :: rest) =
      (if (codeOf line).isEmpty then [] else [(first, codeOf line)]) ++ codesFrom (first + 1) rest := by
  rw [codesFrom, List.zipIdx_cons, List.filterMap_cons]
  split <;> simp_all [codesFrom]

theorem codesFrom_cons_of_noCode (first : Nat) {line : Text} (noCode : codeOf line = []) (rest : List Text) :
    codesFrom first (line :: rest) = codesFrom (first + 1) rest := by
  rw [codesFrom_cons, noCode]
  rfl

theorem number_of_mem_codesFrom {first : Nat} {lines : List Text} {code : Nat × Text}
    (member : code ∈ codesFrom first lines) : first ≤ code.1 ∧ code.1 < first + lines.length := by
  obtain ⟨⟨line, n⟩, inside, made⟩ := List.mem_filterMap.mp member
  obtain ⟨low, high, _⟩ := List.mem_zipIdx inside
  split at made
  · contradiction
  · rw [← Option.some.inj made]
    exact ⟨low, high⟩

/-- Every piece of code is still there, on the line it was moved to. -/
theorem Relaid.codes {old relaid : List Text} {moved : Nat → Nat} (change : Relaid old relaid moved) :
    codesFrom 1 relaid = (codesFrom 1 old).map fun code => (moved code.1, code.2) := by
  cases change with
  | @insert before after line noCode =>
    have above : codesFrom 1 before = (codesFrom 1 before).map fun code => (later before.length code.1, code.2) := by
      refine (List.map_id _).symm.trans (List.map_congr_left fun code member => ?_)
      have number := number_of_mem_codesFrom member
      rw [later, if_pos (by omega)]
      rfl
    have below : codesFrom (1 + before.length + 1) after =
        (codesFrom (1 + before.length) after).map fun code => (later before.length code.1, code.2) := by
      rw [Nat.add_comm _ 1, codesFrom_later]
      refine List.map_congr_left fun code member => ?_
      have number := number_of_mem_codesFrom member
      rw [later, if_neg (by omega)]
    rw [codesFrom_append, codesFrom_cons_of_noCode _ noCode, codesFrom_append, List.map_append, ← above, below]
  | fill before noCode =>
    rw [codesFrom_append, codesFrom_append, codesFrom_cons_of_noCode _ noCode, codesFrom_cons_of_noCode _ (by decide)]
    exact (List.map_id _).symm
  | @restyle before after line styled ending style ends =>
    have blank : ∀ c ∈ ending, isBlank c := by
      rcases ends with rfl | rfl <;> exact List.all_eq_true.mp (by decide)
    have same : codeOf (styled ++ ending) = codeOf (line ++ ending) := by
      rw [codeOf_append blank, codeOf_append blank, style.codeOf]
    rw [codesFrom_append, codesFrom_append, codesFrom_cons, codesFrom_cons, same]
    exact (List.map_id _).symm

/-- Changes to the layout of a script move its code to other lines and leave it what it is. -/
theorem LaidOut.codes {script relaid : Text} {moved : Nat → Nat} (laid : LaidOut script relaid moved) :
    Script.codes relaid = (Script.codes script).map fun code => (moved code.1, code.2) := by
  induction laid with
  | same => exact (List.map_id _).symm
  | change _ change ih =>
    rw [codes_eq, change.codes, ← codes_eq, ih, List.map_map]
    rfl

end Script

end MemoryTrace
