import Mathlib.Order.Bounds.Basic
import MemoryTrace.Proofs.Script.AssignmentCut

namespace MemoryTrace.Script

open Text

section Places

variable (s : Text) (i : Nat)

/-- The character in front of a place. -/
def previous? : Option Char := if 0 < i then s[i - 1]? else none

/-- An equals sign assigns unless another follows or a comparison mark precedes. -/
structure AssignsAt : Prop where
  sign : s[i]? = some '='
  single : s[i + 1]? ≠ some '='
  no_comparison : ∀ c ∈ previous? s i, c ∉ comparisonMarks

/-- The two sides of the sign at a place. An operator in front of the sign belongs to neither. -/
def cutAt : Assignment :=
  let compound := (previous? s i).any arithmeticMarks.contains
  { target := trim (s.take (if compound then i - 1 else i)), value := trimStatement (s.drop (i + 1)), compound }

end Places

section Scan

variable (before : Text) (c : Char) (rest : Text)

/-- What stands in front of the next character was passed last. -/
theorem previous?_reverse (text : Text) : previous? (before.reverse ++ text) before.length = before.head? := by
  cases before with
  | nil => rfl
  | cons d others => simp [previous?]

/-- What the scan asks of the next character is that it assigns. -/
theorem assignsAt_iff : AssignsAt (before.reverse ++ c :: rest) before.length ↔
    c = '=' ∧ rest.head? ≠ some '=' ∧ ¬ before.head?.any comparisonMarks.contains := by
  have here : (before.reverse ++ c :: rest)[before.length]? = some c := by simp
  have behind : (before.reverse ++ c :: rest)[before.length + 1]? = rest.head? := by
    rw [List.getElem?_append_right (by simp), List.length_reverse, Nat.add_sub_cancel_left, List.getElem?_cons_succ,
      List.head?_eq_getElem?]
  constructor
  · rintro ⟨sign, single, no_comparison⟩
    rw [previous?_reverse] at no_comparison
    refine ⟨Option.some.inj (here.symm.trans sign), behind ▸ single, fun compares => ?_⟩
    obtain ⟨mark, known, listed⟩ := (Option.any_eq_true ..).mp compares
    exact no_comparison mark known (List.contains_iff_mem.mp listed)
  · rintro ⟨rfl, single, no_comparison⟩
    refine ⟨here, behind.symm ▸ single, fun mark known listed => no_comparison ?_⟩
    rw [previous?_reverse] at known
    exact (Option.any_eq_true ..).mpr ⟨mark, known, List.contains_iff_mem.mpr listed⟩

/-- The sides of a sign, from what was passed and what is left. -/
theorem cutAt_reverse : cutAt (before.reverse ++ c :: rest) before.length =
    { target := trim (if before.head?.any arithmeticMarks.contains then before.tail else before).reverse
      value := trimStatement rest
      compound := before.head?.any arithmeticMarks.contains } := by
  have behind : (before.reverse ++ c :: rest).drop (before.length + 1) = rest := by
    rw [← List.length_reverse, List.drop_append, List.drop_eq_nil_of_le (Nat.le_succ _), Nat.add_sub_cancel_left]
    rfl
  rw [cutAt, previous?_reverse, behind]
  split
  · cases before with
    | nil => rfl
    | cons d others =>
      rw [List.length_cons, Nat.add_sub_cancel, List.tail_cons, List.reverse_cons, List.append_assoc,
        List.take_left' List.length_reverse]
  · rw [List.take_left' List.length_reverse]

/-- From every place on, the scan stops at the first sign that assigns, or finds none. `before` is the text passed, last
character first. -/
theorem assignmentFrom?_first (before text : Text) :
    assignmentFrom? before text = none ∧ (∀ i, before.length ≤ i → ¬ AssignsAt (before.reverse ++ text) i) ∨
      ∃ i, IsLeast {i | before.length ≤ i ∧ AssignsAt (before.reverse ++ text) i} i ∧
        assignmentFrom? before text = some (cutAt (before.reverse ++ text) i) := by
  induction text generalizing before with
  | nil =>
    refine .inl ⟨rfl, fun i beyond assigns => ?_⟩
    have missing : (before.reverse ++ [])[i]? = none := by simpa using beyond
    exact nomatch missing.symm.trans assigns.sign
  | cons c rest ih =>
    by_cases here : AssignsAt (before.reverse ++ c :: rest) before.length
    · refine .inr ⟨before.length, ⟨⟨Nat.le_refl _, here⟩, fun i later => later.1⟩, ?_⟩
      rw [assignmentFrom?, if_pos ((assignsAt_iff before c rest).mp here), cutAt_reverse]
    · have passed : assignmentFrom? before (c :: rest) = assignmentFrom? (c :: before) rest := by
        rw [assignmentFrom?, if_neg fun assigns => here ((assignsAt_iff before c rest).mpr assigns)]
      have whole : (c :: before).reverse ++ rest = before.reverse ++ c :: rest := by simp
      have beyond {i : Nat} (inside : before.length ≤ i) (assigns : AssignsAt (before.reverse ++ c :: rest) i) :
          (c :: before).length ≤ i := by
        rcases Nat.eq_or_lt_of_le inside with rfl | less
        · exact absurd assigns here
        · exact less
      rw [passed]
      rcases ih (c :: before) with ⟨missing, none_later⟩ | ⟨i, ⟨⟨later, assigns⟩, first⟩, found⟩
      · rw [whole] at none_later
        exact .inl ⟨missing, fun i inside assigns => none_later i (beyond inside assigns) assigns⟩
      · rw [whole] at assigns first found
        refine .inr ⟨i, ⟨⟨Nat.le_of_succ_le later, assigns⟩, fun j both => ?_⟩, found⟩
        exact first ⟨beyond both.1 both.2, both.2⟩

end Scan

/-- A line is split at its first equals sign that assigns, and not at all where none does. The scan by bytes, which
passes a doubled sign in one step, comes to the same. -/
theorem first_sign_splits (s : Text) :
    (splitAssignment? s = none ↔ ∀ i, ¬ AssignsAt s i) ∧
      (∀ a, splitAssignment? s = some a ↔ ∃ i, IsLeast {i | AssignsAt s i} i ∧ a = cutAt s i) ∧
      Bytewise.assignment? s = some (splitAssignment? s) := by
  have scanned := assignmentFrom?_first [] s
  have everywhere : {i | ([] : Text).length ≤ i ∧ AssignsAt s i} = {i | AssignsAt s i} := by simp
  rw [List.reverse_nil, List.nil_append, everywhere] at scanned
  refine ⟨?_, fun a => ?_, Bytewise.assignment?_eq s⟩
  · rcases scanned with ⟨missing, none_later⟩ | ⟨i, ⟨assigns, _⟩, found⟩
    · exact ⟨fun _ i => none_later i (Nat.zero_le i), fun _ => missing⟩
    · exact ⟨fun missing => (nomatch found.symm.trans missing), fun nowhere => absurd assigns (nowhere i)⟩
  · rcases scanned with ⟨missing, none_later⟩ | ⟨i, first, found⟩
    · refine ⟨fun found => (nomatch missing.symm.trans found), ?_⟩
      rintro ⟨i, ⟨assigns, _⟩, _⟩
      exact absurd assigns (none_later i (Nat.zero_le i))
    · constructor
      · intro same
        exact ⟨i, first, (Option.some.inj (found.symm.trans same)).symm⟩
      · rintro ⟨j, other, rfl⟩
        rw [other.unique first]
        exact found

/-- Runs of signs compare, and so do signs behind comparison marks. -/
example : splitAssignment? "a === b !== c <= d += e;".toList =
    some { target := "a === b !== c <= d".toList, value := "e".toList, compound := true } := by
  decide +kernel

end MemoryTrace.Script
