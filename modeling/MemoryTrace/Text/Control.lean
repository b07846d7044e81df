import MemoryTrace.Text.Basic

namespace MemoryTrace

/-- Where a terminal stands in the text it reads: on the ground, or inside a sequence that an escape began. -/
inductive ControlState
  | ground
  | escape
  | escapeIntermediate
  | controlSequence
  | deviceControl
  | deviceParameter
  | deviceIntermediate
  | controlString
  | systemCommand
  deriving DecidableEq, Repr

namespace ControlState

/-- Characters that only lead up to the one that ends a sequence. -/
def isIntermediate (c : Char) : Bool := ' ' ≤ c && c ≤ '/'

/-- The byte that ends a string, as a byte of a character. -/
def holdsStringEnd (c : Char) : Bool := (String.utf8EncodeChar c).contains 0x9C

/-- The kind of sequence that an escape begins with this character. Most have no further one. -/
def afterEscape (c : Char) : ControlState :=
  if c = '[' then .controlSequence
  else if c = ']' then .systemCommand
  else if c = 'P' then .deviceControl
  else if c = 'X' ∨ c = '^' ∨ c = '_' then .controlString
  else if isIntermediate c then .escapeIntermediate
  else if '0' ≤ c ∧ c ≤ '~' then .ground
  else .escape

/-- Where a character leads to that is not shown. An escape begins a new sequence wherever it stands, and
a cancelling character ends every one. -/
def next (state : ControlState) (c : Char) : ControlState :=
  if c = '\x1b' then .escape
  else if c = '\x18' ∨ c = '\x1a' then .ground
  else
    match state with
    | ground => .ground
    | escape => afterEscape c
    | escapeIntermediate => if '0' ≤ c ∧ c ≤ '~' then .ground else state
    | controlSequence => if '@' ≤ c ∧ c ≤ '~' then .ground else state
    | deviceControl =>
      if isIntermediate c then .deviceIntermediate
      else if '0' ≤ c ∧ c ≤ '?' then .deviceParameter
      else if '@' ≤ c ∧ c ≤ '~' then .controlString
      else state
    | deviceParameter =>
      if isIntermediate c then .deviceIntermediate
      else if '<' ≤ c ∧ c ≤ '~' then .controlString
      else state
    | deviceIntermediate => if '0' ≤ c ∧ c ≤ '~' then .controlString else state
    | controlString => if holdsStringEnd c then .ground else state
    | systemCommand => if c = '\x07' then .ground else state

/-- The controls that are kept: tab, line feed, form feed and carriage return. -/
def isLayout (c : Char) : Bool := c = '\t' || c = '\n' || c = '\x0c' || c = '\r'

/-- Whether a character is shown. Inside a sequence the layout still is, but a string takes in everything. -/
def shows (state : ControlState) (c : Char) : Bool :=
  match state with
  | ground => (' ' ≤ c && c ≠ '\x7f') || isLayout c
  | escape | escapeIntermediate | controlSequence => isLayout c
  | _ => false

/-- The characters that are shown. Right after one of them the next is taken as on the ground, but a sequence
that an ASCII character interrupted goes on once a character is not shown. -/
def shown (state : ControlState) (showing : Bool) : Text → Text
  | [] => []
  | c :: rest =>
    if (if showing then ground else state).shows c then
      c :: shown (if c.toNat < 0x80 then state else .ground) true rest
    else shown (state.next c) false rest

end ControlState

namespace Text

/-- The text without control characters and control sequences. -/
def withoutControls (text : Text) : Text := ControlState.ground.shown false text

end Text

end MemoryTrace
