import MemoryTrace.Total

namespace MemoryTrace

/-- Text under a reader is the list of its characters, so that every scan is a recursion on it.
Names, descriptions and messages, which nothing scans, stay strings. -/
abbrev Text := List Char

namespace Text

/-- Whether the text begins with `word`. -/
def startsWith (word : String) (text : Text) : Bool := word.toList.isPrefixOf text

/-- Whether the text ends with `word`. -/
def endsWith (word : String) (text : Text) : Bool := word.toList.isSuffixOf text

/-- What follows a leading `word`. -/
def afterStart? (word : String) (text : Text) : Option Text := word.toList.isPrefixOf? text

/-- What precedes a closing `word`. -/
def beforeEnd? (word : String) (text : Text) : Option Text := word.toList.isSuffixOf? text

/-- The text on both sides of the first occurrence of `mark`. -/
def around? (mark : String) : Text → Option (Text × Text)
  | [] => if mark.isEmpty then some ([], []) else none
  | c :: rest =>
    match mark.toList.isPrefixOf? (c :: rest) with
    | some after => some ([], after)
    | none => (around? mark rest).map fun sides => (c :: sides.1, sides.2)

/-- Whether `word` occurs anywhere in the text. -/
def mentions (word : String) (text : Text) : Bool := (around? word text).isSome

/-- The text up to its last `mark`. -/
def beforeLast? (mark : Char) (text : Text) : Option Text :=
  match text.reverse.dropWhile (· ≠ mark) with
  | [] => none
  | _ :: before => some before.reverse

/-- Drops the longest run of characters satisfying `p` at the end. -/
def dropEndWhile (p : Char → Bool) (text : Text) : Text := (text.reverse.dropWhile p).reverse

/-- The stretches between breaks that are not empty. -/
def fields (isBreak : Char → Bool) (text : Text) : List Text :=
  (text.splitOnP isBreak).filter (!·.isEmpty)

/-- Bytes the text takes in UTF-8. -/
def byteLength (text : Text) : Nat := total Char.utf8Size text

/-- Splits after the first `bytes` bytes. There is no such place when it falls inside a
character or beyond the end. -/
def splitAtByte? : Text → Nat → Option (Text × Text)
  | text, 0 => some ([], text)
  | [], _ + 1 => none
  | c :: rest, bytes + 1 =>
    if c.utf8Size ≤ bytes + 1 then
      (splitAtByte? rest (bytes + 1 - c.utf8Size)).map fun sides => (c :: sides.1, sides.2)
    else none

/-- A last line that is not ended keeps its carriage return, and the empty stretch after a final
line end is no line. -/
def lines (text : Text) : List Text :=
  let stretches := text.splitOnP (· = '\n')
  let ended := stretches.dropLast.map fun line => (beforeEnd? "\r" line).getD line
  match stretches.getLast? with
  | some (c :: rest) => ended ++ [c :: rest]
  | _ => ended

/-- The text as a name or message. -/
def toName (text : Text) : String := String.ofList text

@[simp] theorem toName_inj {a b : Text} : a.toName = b.toName ↔ a = b := String.ofList_inj

@[simp] theorem toList_toName (text : Text) : text.toName.toList = text := String.toList_ofList

theorem nil_isPrefixOf? (text : Text) : List.isPrefixOf? [] text = some text := by cases text <;> rfl

theorem cons_isPrefixOf?_cons (m c : Char) (rest more : Text) :
    (m :: rest).isPrefixOf? (c :: more) = if m == c then rest.isPrefixOf? more else none := rfl

theorem eq_append_of_isPrefixOf? {mark text after : Text} (found : mark.isPrefixOf? text = some after) :
    text = mark ++ after := by
  induction mark generalizing text with
  | nil => exact Option.some.inj (nil_isPrefixOf? text ▸ found)
  | cons m rest ih =>
    cases text with
    | nil => contradiction
    | cons c more =>
      rw [cons_isPrefixOf?_cons] at found
      split at found
      · rename_i same
        rw [ih found, List.cons_append, ← beq_iff_eq.mp same]
      · contradiction

/-- A text that is cut around a mark can be put together again. -/
theorem eq_append_of_around? {mark : String} {text before after : Text}
    (found : around? mark text = some (before, after)) : text = before ++ mark.toList ++ after := by
  induction text generalizing before after with
  | nil =>
    by_cases empty : mark = ""
    · subst empty
      obtain ⟨rfl, rfl⟩ := Prod.mk.inj (Option.some.inj found)
      rfl
    · simp [around?, empty] at found
  | cons c rest ih =>
    unfold around? at found
    split at found
    · rename_i tail atStart
      obtain ⟨rfl, rfl⟩ := Prod.mk.inj (Option.some.inj found)
      simpa using eq_append_of_isPrefixOf? atStart
    · obtain ⟨sides, later, same⟩ := Option.map_eq_some_iff.mp found
      obtain ⟨rfl, rfl⟩ := Prod.mk.inj same
      simp [ih later]

end Text

end MemoryTrace
