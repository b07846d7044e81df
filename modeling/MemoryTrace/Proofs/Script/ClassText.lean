import MemoryTrace.Proofs.Script.Reading
import MemoryTrace.Session.ClassDefinition

namespace MemoryTrace.Script

open Text

/-- What opens a class: `class N {`. -/
def classHeader (name : Text) : Text := "class".toList ++ ' ' :: (name ++ ' ' :: ['{'])

theorem classHeader_eq (name : Text) : classHeader name = "class".toList ++ ' ' :: (name ++ ' ' :: ['{']) := rfl

/-- What closes a class: `};`. -/
def classEnd : Text := ['}', ';']

/-- A class on one line: `class N { int x; int y; };`. -/
def classLine (name : Text) (members : List Text) : Text :=
  classHeader name ++ (members.flatMap (fun m => ' ' :: (m ++ [';'])) ++ ' ' :: classEnd)

/-- The same class on several lines, with each member on its own. -/
def classLines (name : Text) (members : List Text) : List Text :=
  classHeader name :: (members.map (· ++ [';']) ++ [classEnd])

/-- A member that is a single statement. It does not end before its semicolon, and it has no braces. -/
def IsStatement (m : Text) : Prop := ∀ c ∈ m, c ≠ ';' ∧ c ≠ '{' ∧ c ≠ '}'

instance (m : Text) : Decidable (IsStatement m) :=
  List.decidableBAll (fun c => c ≠ ';' ∧ c ≠ '{' ∧ c ≠ '}') m

/-- A member that is no function and has no access specifier in front. -/
def isData (m : Text) : Bool :=
  !m.contains '(' && ["public:", "private:", "protected:"].all fun label => !m.trimStart.startsWith label

theorem IsStatement.not_mem {m : Text} (single : IsStatement m) : ';' ∉ m := fun member =>
  (single ';' member).1 rfl

section Trimming

variable {m : Text}

theorem trim_concat (m : Text) : trim (m ++ [';']) = m.trimStart ++ [';'] := by
  have start : trimStart (m ++ [';']) = m.trimStart ++ [';'] := by
    rw [trimStart, trimStart, List.dropWhile_append]
    split
    · rename_i blank
      rw [List.isEmpty_iff.mp blank]
      rfl
    · rfl
  rw [trim, start]
  exact dropEndWhile_append_of_neg (by decide) _

theorem dropEndWhile_of_absent (absent : ';' ∉ m) : dropEndWhile (· = ';') m = m := by
  by_cases empty : m = []
  · rw [empty]
    rfl
  · refine (Bounded.of_all empty fun c member => ?_).dropEndWhile
    exact decide_eq_false fun same => absent (same ▸ member)

theorem trimStatement_of_absent (absent : ';' ∉ m) : trimStatement m = m.trim := by
  have still : ';' ∉ m.trim := fun member => absent ((mem_trim (by decide)).mp member)
  rw [trimStatement, dropEndWhile_of_absent still]
  exact trimEnd_trimEnd _

/-- A statement that is ended by a semicolon loses it. -/
theorem trimStatement_concat (absent : ';' ∉ m) : trimStatement (m ++ [';']) = m.trim := by
  have still : ';' ∉ m.trimStart := fun member => absent ((List.dropWhile_sublist _).subset member)
  rw [trimStatement, trim_concat, dropEndWhile_append_of_pos (by decide), dropEndWhile_of_absent still]
  rfl

theorem isData_trimStart (data : isData m) : isData m.trimStart := by
  obtain ⟨no_call, unlabelled⟩ := Bool.and_eq_true_iff.mp data
  rw [isData, trimStart_trimStart, unlabelled, Bool.and_true]
  have outside : '(' ∉ m := by simpa using no_call
  have still : '(' ∉ m.trimStart := fun member => outside ((List.dropWhile_sublist _).subset member)
  simpa using still

end Trimming

theorem trim_classHeader (name : Text) : (classHeader name).trim = classHeader name := by
  refine trim_of_bounded ⟨⟨'c', _, rfl, by decide⟩, ⟨"class".toList ++ ' ' :: (name ++ [' ']), '{', ?_, by decide⟩⟩
  simp [classHeader_eq]

/-- A name is one token. -/
theorem solid_of_isName {name : Text} (named : isName name) :
    ∀ c ∈ name, ¬ isBlank c ∧ c ≠ ';' ∧ c ≠ '{' ∧ c ≠ '}' := by
  intro c member
  have letter := isNameChar_of_mem named member
  refine ⟨?_, ne_of_isNameChar letter (by decide), ne_of_isNameChar letter (by decide),
    ne_of_isNameChar letter (by decide)⟩
  rw [isBlank_of_isNameChar letter]
  decide

section Header

variable {name : Text} (named : isName name)

include named

/-- The first token of a class header is the keyword, and the second the name. -/
theorem tokens_classHeader (rest : Text) :
    tokens (classHeader name ++ rest) = "class".toList :: name :: tokens ('{' :: rest) := by
  have spelled : classHeader name ++ rest = "class".toList ++ ' ' :: (name ++ ' ' :: ('{' :: rest)) := by
    simp only [classHeader_eq, List.append_assoc, List.cons_append, List.nil_append]
  have keyword : isName "class".toList := by decide
  rw [spelled, tokens_cons (ne_nil_of_isName keyword) (solid_of_isName keyword),
    tokens_cons (ne_nil_of_isName named) (solid_of_isName named)]

/-- Whatever follows it, a class header is read as one. -/
theorem isClassHeader_classHeader (rest : Text) : isClassHeader (classHeader name ++ rest) := by
  have opens : '{' ∈ classHeader name ++ rest := by simp [classHeader_eq]
  rw [isClassHeader, firstTokenIs, tokens_classHeader named, List.contains_iff_mem.mpr opens]
  rfl

/-- The braces of a class on one line enclose what stands between its header and its last brace. -/
theorem braced?_classHeader (rest : Text) : Action.braced? (classHeader name ++ rest) = beforeLast? '}' rest := by
  have absent : '{' ∉ "class".toList ++ ' ' :: (name ++ [' ']) := by
    have outside : '{' ∉ name := not_mem_of_isName named (by decide)
    simpa using outside
  have spelled : classHeader name ++ rest = ("class".toList ++ ' ' :: (name ++ [' '])) ++ '{' :: rest := by
    simp only [classHeader_eq, List.append_assoc, List.cons_append, List.nil_append]
  rw [Action.braced?, spelled, dropWhile_ne_append absent]

end Header

/-- The last brace of a class on one line is the one that closes it. -/
theorem beforeLast?_classEnd (text : Text) : beforeLast? '}' (text ++ classEnd) = some text := by
  simp [beforeLast?, classEnd]

/-- What stands between the braces of a class on one line parts into its members. -/
theorem splitOnP_members {members : List Text} (single : ∀ m ∈ members, IsStatement m) :
    (members.flatMap (fun m => ' ' :: (m ++ [';'])) ++ [' ']).splitOnP (· = ';') =
      members.map (' ' :: ·) ++ [[' ']] := by
  induction members with
  | nil => rfl
  | cons m rest ih =>
    rw [List.forall_mem_cons] at single
    have solid (c : Char) (member : c ∈ ' ' :: m) : decide (c = ';') = false := by
      rcases List.mem_cons.mp member with rfl | inside
      · rfl
      · exact decide_eq_false (single.1 c inside).1
    have spelled : (m :: rest).flatMap (fun m => ' ' :: (m ++ [';'])) ++ [' '] =
        (' ' :: m) ++ ';' :: (rest.flatMap (fun m => ' ' :: (m ++ [';'])) ++ [' ']) := by
      simp only [List.flatMap_cons, List.append_assoc, List.cons_append, List.nil_append]
    rw [spelled, List.splitOnP_append_cons_of_forall_mem solid ';' rfl, ih single.2]
    rfl

/-- No label stands in front of a data member, so nothing is dropped from its line. -/
theorem withoutAccess_of_isData {m : Text} (data : isData m) : withoutAccess (m ++ [';']) = m ++ [';'] := by
  have none_found : ["public:", "private:", "protected:"].findSome? ((m ++ [';']).afterStart? ·) = none := by
    rw [List.findSome?_eq_none_iff]
    intro label known
    have labels : ∀ label ∈ ["public:", "private:", "protected:"],
        ';' ∉ label.toList ∧ label.toList = 'p' :: label.toList.tail := by decide
    obtain ⟨unended, spelled⟩ := labels label known
    have unlabelled : m.trimStart.startsWith label = false := by
      simpa using List.all_eq_true.mp (Bool.and_eq_true_iff.mp data).2 label known
    rw [afterStart?, isPrefixOf?_eq_none_iff]
    intro start
    rcases List.prefix_concat_iff.mp start with whole | start
    · exact unended (whole ▸ List.mem_append_right m List.mem_cons_self)
    · obtain ⟨after, rfl⟩ := start
      rw [spelled, List.cons_append, trimStart_of_head (by decide), ← List.cons_append, ← spelled] at unlabelled
      exact absurd (startsWith_iff.mpr (List.prefix_append ..)) (Bool.eq_false_iff.mp unlabelled)
  rw [withoutAccess, none_found]

end MemoryTrace.Script
