import MemoryTrace.Text.Basic

namespace MemoryTrace

/-- Sizes, counts and addresses are 64-bit words: this is the largest. -/
def largestWord : Nat := 0xFFFFFFFFFFFFFFFF

/-- The exact total, or the largest word where that does not hold it. -/
def saturate (n : Nat) : Nat := min n largestWord

namespace Text

/-- The value of a non-empty run of decimal digits. -/
def digits? (text : Text) : Option Nat :=
  if text ≠ [] ∧ text.all Char.isDigit then
    some (text.foldl (fun n c => 10 * n + (c.toNat - '0'.toNat)) 0)
  else none

/-- Decimal digits, with or without a leading `+`, that a word can hold. -/
def word? (text : Text) : Option Nat :=
  (digits? ((afterStart? "+" text).getD text)).filter (· ≤ largestWord)

/-- Whether the text is a signed 32-bit number. The negative range reaches one further. -/
def isInt32 (text : Text) : Bool :=
  match afterStart? "-" text with
  | some magnitude => (digits? magnitude).any (· ≤ 0x80000000)
  | none => (word? text).any (· < 0x80000000)

end Text

end MemoryTrace
