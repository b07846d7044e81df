import MemoryTrace.Proofs.Text.Scanning
import MemoryTrace.Script.TypeName

namespace MemoryTrace.Script

open Text

/-- As many angle brackets close as open, and none closes before it was opened. -/
structure AnglesMatch (text : Text) : Prop where
  closed : text.count '>' = text.count '<'
  opened : ∀ read, read <+: text → read.count '>' ≤ read.count '<'

instance (text : Text) : Decidable (AnglesMatch text) :=
  decidable_of_iff (text.count '>' = text.count '<' ∧ ∀ read ∈ text.inits, read.count '>' ≤ read.count '<')
    ⟨fun ⟨closed, opened⟩ => ⟨closed, fun read part => opened read ((List.mem_inits ..).mpr part)⟩,
      fun ⟨closed, opened⟩ => ⟨closed, fun read member => opened read ((List.mem_inits ..).mp member)⟩⟩

theorem AnglesMatch.of_absent {text : Text} (absent : ∀ c ∈ text, c ≠ '<' ∧ c ≠ '>') : AnglesMatch text := by
  have none_closes : '>' ∉ text := fun member => (absent _ member).2 rfl
  have none_opens : '<' ∉ text := fun member => (absent _ member).1 rfl
  refine ⟨by rw [List.count_eq_zero.mpr none_closes, List.count_eq_zero.mpr none_opens], fun read part => ?_⟩
  rw [List.count_eq_zero.mpr fun member => none_closes (part.subset member)]
  exact Nat.zero_le _

/-- The scan stops at the bracket that closes the outermost one, with all that were opened since closed. -/
theorem closeAngle?_nested {argument : Text} {nested : Nat} (closed : argument.count '>' = argument.count '<' + nested)
    (opened : ∀ read, read <+: argument → read.count '>' ≤ read.count '<' + nested) (rest : Text) :
    closeAngle? nested (argument ++ '>' :: rest) = some (argument, rest) := by
  induction argument generalizing nested with
  | nil =>
    obtain rfl : nested = 0 := by simpa using closed.symm
    rfl
  | cons c others ih =>
    have count_cons (mark : Char) (text : Text) : (c :: text).count mark = [c].count mark + text.count mark := by
      rw [← List.singleton_append, List.count_append]
    have later (deeper : Nat) (moved : [c].count '>' + deeper = [c].count '<' + nested) :
        closeAngle? deeper (others ++ '>' :: rest) = some (others, rest) := by
      refine ih ?_ fun read part => ?_
      · rw [count_cons '>' others, count_cons '<' others] at closed
        omega
      · have here := opened (c :: read) (List.cons_prefix_cons.mpr ⟨rfl, part⟩)
        rw [count_cons '>' read, count_cons '<' read] at here
        omega
    unfold closeAngle?
    by_cases opens : c = '<'
    · subst opens
      simp [later (nested + 1) (by simp [Nat.add_comm])]
    · by_cases closes : c = '>'
      · subst closes
        have inside : 1 ≤ nested := by simpa using opened ['>'] (List.cons_prefix_cons.mpr ⟨rfl, List.nil_prefix⟩)
        obtain ⟨deeper, rfl⟩ := Nat.exists_eq_add_of_le' inside
        simp [later deeper (by simp [Nat.add_comm])]
      · simp [opens, closes, later nested (by simp [opens, closes])]

/-- A template argument ends at the angle bracket that closes the one in front of it, however many pairs of them it
has inside. -/
theorem splitTemplate?_append {before argument : Text} (absent : '<' ∉ before) (angles : AnglesMatch argument)
    (rest : Text) : splitTemplate? (before ++ '<' :: (argument ++ '>' :: rest)) = some (argument.trim, rest) := by
  rw [splitTemplate?, dropWhile_ne_append absent]
  dsimp only
  rw [closeAngle?_nested angles.closed angles.opened]
  rfl

end MemoryTrace.Script
