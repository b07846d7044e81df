import MemoryTrace.Proofs.Text.Bytes
import MemoryTrace.Script.Assignment

namespace MemoryTrace.Script.Bytewise

open Text

/-- The offset of the first equals sign that assigns, from the `i`th byte on, and whether an operator precedes it. -/
def signFrom? (bytes : List UInt8) (i : Nat) : Option (Nat × Bool) :=
  if inside : i < bytes.length then
    if bytes[i] ≠ '='.toUInt8 then signFrom? bytes (i + 1)
    else if bytes[i + 1]? = some '='.toUInt8 then signFrom? bytes (i + 2)
    else
      let previous := if 0 < i then bytes[i - 1]? else none
      if previous.any (comparisonMarks.map Char.toUInt8).contains then signFrom? bytes (i + 1)
      else some (i, previous.any (arithmeticMarks.map Char.toUInt8).contains)
  else none
termination_by bytes.length - i

/-- What stands on both sides of a sign. The operator in front of it belongs to neither. -/
def cutAt? (line : Text) : Option (Nat × Bool) → Option (Option Assignment)
  | none => some none
  | some (offset, compound) => do
    let target ← line.upTo? (if compound then offset - 1 else offset)
    let value ← line.from? (offset + 1)
    some (some { target := trim target, value := trimStatement value, compound })

/-- What stands on both sides of the first sign that assigns. -/
def assignment? (line : Text) : Option (Option Assignment) := cutAt? line (signFrom? (bytes line) 0)

theorem signFrom?_of_ne {bytes : List UInt8} {i : Nat} (inside : i < bytes.length) (other : bytes[i] ≠ '='.toUInt8) :
    signFrom? bytes i = signFrom? bytes (i + 1) := by
  rw [signFrom?, dif_pos inside, if_pos other]

theorem signFrom?_add {bytes : List UInt8} {i : Nat} (count : Nat)
    (others : ∀ k < count, ∃ byte, bytes[i + k]? = some byte ∧ byte ≠ '='.toUInt8) :
    signFrom? bytes i = signFrom? bytes (i + count) := by
  induction count with
  | zero => rfl
  | succ count ih =>
    rw [ih fun k less => others k (Nat.lt_succ_of_lt less)]
    obtain ⟨byte, there, other⟩ := others count (Nat.lt_succ_self count)
    obtain ⟨inside, rfl⟩ := List.getElem?_eq_some_iff.mp there
    exact signFrom?_of_ne inside other

section Place

variable (before : Text) (c : Char) (rest : Text)

/-- The bytes of a character that is no equals sign are passed one by one. -/
theorem signFrom?_cons {c : Char} (other : c ≠ '=') :
    signFrom? (bytes (before ++ c :: rest)) (byteLength before) =
      signFrom? (bytes (before ++ c :: rest)) (byteLength before + c.utf8Size) := by
  refine signFrom?_add c.utf8Size fun k less => ?_
  rw [← String.length_utf8EncodeChar] at less
  rw [getElem?_bytes_append, bytes_cons, List.getElem?_append_left less, List.getElem?_eq_getElem less]
  refine ⟨_, rfl, fun same => other ?_⟩
  rw [← mem_utf8EncodeChar (by decide), ← same]
  exact List.getElem_mem less

/-- The first byte tells whether a text begins with a mark. -/
theorem head?_bytes {mark : Char} (ascii : mark.toNat < 128) :
    (bytes rest)[0]? = some mark.toUInt8 ↔ rest.head? = some mark := by
  cases rest with
  | nil => simp [bytes]
  | cons c rest =>
    have some_byte : 0 < (String.utf8EncodeChar c).length := by
      rw [String.length_utf8EncodeChar]
      exact c.utf8Size_pos
    rw [bytes_cons, List.getElem?_append_left some_byte, List.head?_cons, Option.some.injEq]
    constructor
    · intro first
      exact (mem_utf8EncodeChar ascii).mp (List.mem_of_getElem? first)
    · rintro rfl
      rw [utf8EncodeChar_of_lt ascii]
      rfl

/-- The last byte in front of a place is that of a mark if the last character is. -/
theorem previous_byte {marks : List Char} (ascii : marks.all (·.toNat < 128)) :
    (if 0 < byteLength before then (bytes (before ++ rest))[byteLength before - 1]? else none).any
        (marks.map Char.toUInt8).contains =
      before.getLast?.any marks.contains := by
  rcases before.eq_nil_or_concat' with rfl | ⟨others, c, rfl⟩
  · rfl
  · have positive := c.utf8Size_pos
    have last_lt : c.utf8Size - 1 < (String.utf8EncodeChar c).length := by
      rw [String.length_utf8EncodeChar]
      omega
    have place : byteLength (others ++ [c]) - 1 = byteLength others + (c.utf8Size - 1) := by
      rw [byteLength_append, byteLength_cons, byteLength_nil]
      omega
    rw [if_pos (by rw [byteLength_append, byteLength_cons]; omega), place, List.append_assoc, getElem?_bytes_append,
      List.singleton_append, bytes_cons, List.getElem?_append_left last_lt, List.getElem?_eq_getElem last_lt,
      List.getLast?_concat, Option.any_some, Option.any_some, Bool.eq_iff_iff, List.contains_iff_mem,
      List.contains_iff_mem, List.mem_map]
    have member := List.getElem_mem last_lt
    generalize (String.utf8EncodeChar c)[c.utf8Size - 1] = byte at member ⊢
    constructor
    · rintro ⟨mark, known, rfl⟩
      have low := List.all_eq_true.mp ascii mark known
      rwa [(mem_utf8EncodeChar (of_decide_eq_true low)).mp member]
    · intro known
      have low := List.all_eq_true.mp ascii c known
      rw [utf8EncodeChar_of_lt (of_decide_eq_true low), List.mem_singleton] at member
      exact ⟨c, known, member.symm⟩

/-- At an equals sign the bytes next to it decide. -/
theorem signFrom?_sign : signFrom? (bytes (before ++ '=' :: rest)) (byteLength before) =
    if rest.head? = some '=' then signFrom? (bytes (before ++ '=' :: rest)) (byteLength before + 2)
    else if before.getLast?.any comparisonMarks.contains then
      signFrom? (bytes (before ++ '=' :: rest)) (byteLength before + 1)
    else some (byteLength before, before.getLast?.any arithmeticMarks.contains) := by
  have here : (bytes (before ++ '=' :: rest))[byteLength before]? = some '='.toUInt8 :=
    getElem?_bytes_append before ('=' :: rest) 0
  have behind : (bytes (before ++ '=' :: rest))[byteLength before + 1]? = (bytes rest)[0]? :=
    getElem?_bytes_append before ('=' :: rest) 1
  obtain ⟨inside, equals⟩ := List.getElem?_eq_some_iff.mp here
  rw [signFrom?, dif_pos inside, if_neg (not_not_intro equals), behind]
  dsimp only
  rw [previous_byte before _ (by decide), previous_byte before _ (by decide)]
  simp only [head?_bytes rest (show '='.toNat < 128 by decide)]

end Place

/-- An operator is one byte, so the target is cut right in front of it. -/
theorem upTo?_target (before rest : Text) :
    upTo? (before.reverse ++ rest)
        (if before.head?.any arithmeticMarks.contains then byteLength before.reverse - 1
          else byteLength before.reverse) =
      some (if before.head?.any arithmeticMarks.contains then before.tail else before).reverse := by
  split
  · rename_i compound
    obtain ⟨mark, known, operator⟩ := (Option.any_eq_true ..).mp compound
    obtain ⟨others, rfl⟩ := List.head?_eq_some_iff.mp known
    have ascii : arithmeticMarks.all (·.toNat < 128) := by decide
    have low := List.all_eq_true.mp ascii mark (List.contains_iff_mem.mp operator)
    rw [List.reverse_cons, byteLength_append, byteLength_cons, byteLength_nil, utf8Size_of_lt (of_decide_eq_true low),
      List.append_assoc]
    exact upTo?_append ..
  · exact upTo?_append ..

/-- A line is cut around the sign as characters would cut it. -/
theorem cutAt?_sign (before rest : Text) :
    cutAt? (before.reverse ++ '=' :: rest) (some (byteLength before.reverse, before.head?.any arithmeticMarks.contains)) =
      some (some {
        target := trim (if before.head?.any arithmeticMarks.contains then before.tail else before).reverse
        value := trimStatement rest
        compound := before.head?.any arithmeticMarks.contains }) := by
  rw [cutAt?, upTo?_target, from?_append_cons rfl]
  rfl

/-- From every place on, the bytes tell the same as the characters. `before` is the text passed, last character first.
-/
theorem cutAt?_signFrom? (before text : Text) :
    cutAt? (before.reverse ++ text) (signFrom? (bytes (before.reverse ++ text)) (byteLength before.reverse)) =
      some (assignmentFrom? before text) := by
  cases text with
  | nil =>
    have ended : ¬ byteLength before.reverse < (bytes (before.reverse ++ [])).length := by
      rw [List.append_nil, length_bytes]
      exact Nat.lt_irrefl _
    rw [signFrom?, dif_neg ended]
    rfl
  | cons c rest =>
    have next := cutAt?_signFrom? (c :: before) rest
    rw [List.reverse_cons, List.append_assoc, List.singleton_append, byteLength_append, byteLength_cons,
      byteLength_nil, Nat.add_zero] at next
    by_cases sign : c = '='
    · subst sign
      rw [signFrom?_sign, List.getLast?_reverse]
      by_cases doubled : rest.head? = some '='
      · obtain ⟨more, rfl⟩ := List.head?_eq_some_iff.mp doubled
        have later := cutAt?_signFrom? ('=' :: '=' :: before) more
        have skipped : assignmentFrom? before ('=' :: '=' :: more) = assignmentFrom? ('=' :: '=' :: before) more := by
          rw [assignmentFrom?, if_neg fun both => both.2.1 rfl, assignmentFrom?, if_neg fun both => both.2.2 rfl]
        rw [List.reverse_cons, List.reverse_cons, List.append_assoc, List.append_assoc] at later
        simp only [byteLength_append] at later
        rw [if_pos doubled, skipped]
        exact later
      · rw [if_neg doubled]
        by_cases compares : before.head?.any comparisonMarks.contains
        · rw [if_pos compares, assignmentFrom?, if_neg fun both => both.2.2 compares]
          exact next
        · rw [if_neg compares, assignmentFrom?, if_pos ⟨rfl, doubled, compares⟩]
          exact cutAt?_sign before rest
    · rw [signFrom?_cons before.reverse rest sign, next, assignmentFrom?, if_neg fun both => sign both.1]
termination_by text.length

/-- The sign of an assignment may be searched among bytes. The marks are ASCII, and no other character has one of
their bytes, so the bytes next to an equals sign tell as much as the characters there. -/
theorem assignment?_eq (line : Text) : assignment? line = some (splitAssignment? line) := cutAt?_signFrom? [] line

end MemoryTrace.Script.Bytewise
