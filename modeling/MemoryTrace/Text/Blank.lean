import MemoryTrace.Text.Basic

namespace MemoryTrace

/-- Whether a code point lies in one of the closed ranges. -/
def inRanges (ranges : List (Nat × Nat)) (c : Char) : Bool :=
  ranges.any fun range => range.1 ≤ c.toNat && c.toNat ≤ range.2

/-- The code points with the Unicode property White_Space. -/
def blankRanges : List (Nat × Nat) :=
  [(0x9, 0xD), (0x20, 0x20), (0x85, 0x85), (0xA0, 0xA0), (0x1680, 0x1680), (0x2000, 0x200A),
   (0x2028, 0x2029), (0x202F, 0x202F), (0x205F, 0x205F), (0x3000, 0x3000)]

/-- Whether a character is white space. -/
def isBlank (c : Char) : Bool := inRanges blankRanges c

namespace Text

/-- The text without the blanks at its start. -/
def trimStart (text : Text) : Text := text.dropWhile isBlank

/-- The text without the blanks at its end. -/
def trimEnd (text : Text) : Text := dropEndWhile isBlank text

/-- The text without the blanks on both sides. -/
def trim (text : Text) : Text := trimEnd (trimStart text)

/-- The words between blanks. -/
def words (text : Text) : List Text := fields isBlank text

theorem trimStart_of_head {c : Char} {rest : Text} (solid : isBlank c = false) :
    trimStart (c :: rest) = c :: rest := by
  simp [trimStart, solid]

theorem trimStart_trimStart (text : Text) : trimStart (trimStart text) = trimStart text := by
  induction text with
  | nil => rfl
  | cons c rest ih => by_cases blank : isBlank c <;> simp_all [trimStart]

theorem trimEnd_trimEnd (text : Text) : trimEnd (trimEnd text) = trimEnd text := by
  simpa [trimEnd, dropEndWhile, trimStart] using trimStart_trimStart text.reverse

end Text

end MemoryTrace
