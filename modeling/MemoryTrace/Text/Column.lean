namespace MemoryTrace.Column

/-- The blanks that fill a column. Width counts characters, and text that is too long is kept whole. -/
def padding (width : Nat) (text : String) : String := String.ofList (List.replicate (width - text.length) ' ')

/-- Text at the left edge of its column. -/
def left (width : Nat) (text : String) : String := text ++ padding width text

/-- Text at the right edge of its column. -/
def right (width : Nat) (text : String) : String := padding width text ++ text

/-- An address is written with at least eight hexadecimal digits. -/
def address (n : Nat) : String :=
  let digits := Nat.toDigits 16 n
  "0x" ++ String.ofList (List.replicate (8 - digits.length) '0' ++ digits)

end MemoryTrace.Column
