import Mathlib.Data.List.Infix
import MemoryTrace.Script.CodeLine

namespace MemoryTrace.Script

theorem braceBalance_append (first second : Text) :
    braceBalance (first ++ second) = braceBalance first + braceBalance second := by
  unfold braceBalance
  rw [List.count_append, List.count_append]
  omega

/-- At every place on the way through the text the depth of the braces that were read is such. The depth is counted
character by character. -/
def Throughout (p : Int → Prop) (text : Text) : Prop := ∀ read, read <+: text → p (braceBalance read)

instance (p : Int → Prop) [DecidablePred p] (text : Text) : Decidable (Throughout p text) :=
  decidable_of_iff (∀ read ∈ text.inits, p (braceBalance read))
    ⟨fun all read part => all read ((List.mem_inits ..).mpr part),
      fun throughout read member => throughout read ((List.mem_inits ..).mp member)⟩

/-- The line has no braces but a closing one that it starts with and an opening one that it ends with. -/
structure BracesAtEnds (line : Text) : Prop where
  closing : '}' ∉ line.tail
  opening : '{' ∉ line.dropLast

instance (line : Text) : Decidable (BracesAtEnds line) :=
  decidable_of_iff ('}' ∉ line.tail ∧ '{' ∉ line.dropLast) ⟨fun ⟨closing, opening⟩ => ⟨closing, opening⟩,
    fun ⟨closing, opening⟩ => ⟨closing, opening⟩⟩

namespace BracesAtEnds

variable {line : Text} (shaped : BracesAtEnds line)

include shaped

theorem count_closing : line.count '}' = if line.head? = some '}' then 1 else 0 := by
  cases line with
  | nil => rfl
  | cons c rest =>
    have none_later : rest.count '}' = 0 := List.count_eq_zero.mpr shaped.closing
    simp only [List.count_cons, none_later, Nat.zero_add, List.head?_cons, beq_iff_eq, Option.some.injEq]

theorem count_opening : line.count '{' = if line.getLast? = some '{' then 1 else 0 := by
  cases last : line.getLast? with
  | none =>
    rw [List.getLast?_eq_none_iff.mp last]
    rfl
  | some c =>
    obtain ⟨before, rfl⟩ := List.getLast?_eq_some_iff.mp last
    have opening := shaped.opening
    rw [List.dropLast_concat] at opening
    have none_earlier : before.count '{' = 0 := List.count_eq_zero.mpr opening
    rw [List.count_append, none_earlier, List.count_singleton, Nat.zero_add]
    simp only [beq_iff_eq, Option.some.injEq]

/-- A line with its braces at its ends closes one at most, and opens one at most. -/
theorem braceBalance_eq :
    braceBalance line = (if line.getLast? = some '{' then 1 else 0) - (if line.head? = some '}' then 1 else 0) := by
  rw [braceBalance, shaped.count_closing, shaped.count_opening]
  split <;> split <;> rfl

theorem first_of_mem (member : '}' ∈ line) : line.head? = some '}' := by
  have counted := shaped.count_closing
  split at counted
  · assumption
  · exact absurd member (List.count_eq_zero.mp counted)

/-- On its way through the line the depth goes down by one at most, and only if the line starts with a closing brace. -/
theorem braceBalance_of_prefix {read : Text} (part : read <+: line) :
    -(if line.head? = some '}' then 1 else 0) ≤ braceBalance read := by
  have fewer : read.count '}' ≤ line.count '}' := part.sublist.count_le '}'
  rw [shaped.count_closing] at fewer
  rw [braceBalance]
  split at fewer
  · rw [if_pos ‹_›]
    omega
  · rw [if_neg ‹_›]
    omega

end BracesAtEnds

end MemoryTrace.Script
