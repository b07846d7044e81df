import MemoryTrace.Proofs.Text.Scanning

namespace MemoryTrace.Text

/-- The characters of a text, each behind the number of bytes in front of it, where `start` bytes came before. -/
def charIndices (start : Nat) : Text → List (Nat × Char)
  | [] => []
  | c :: rest => (start, c) :: charIndices (start + c.utf8Size) rest

/-- The first `bytes` bytes. -/
def upTo? (text : Text) (bytes : Nat) : Option Text := (splitAtByte? text bytes).map (·.1)

/-- What follows the first `bytes` bytes. -/
def from? (text : Text) (bytes : Nat) : Option Text := (splitAtByte? text bytes).map (·.2)

/-- The bytes from `first` on, up to `last`. -/
def between? (text : Text) (first last : Nat) : Option Text :=
  if first ≤ last then (text.from? first).bind (·.upTo? (last - first)) else none

/-- How many bytes stand before the first occurrence of a mark. -/
def find? (mark : String) (text : Text) : Option Nat := (around? mark text).map fun sides => byteLength sides.1

/-- How many bytes stand before the first such character. -/
def findChar? (p : Char → Bool) (text : Text) : Option Nat := ((charIndices 0 text).find? (p ·.2)).map (·.1)

/-- How many bytes stand before the last such character. -/
def findLastChar? (p : Char → Bool) (text : Text) : Option Nat :=
  ((charIndices 0 text).reverse.find? (p ·.2)).map (·.1)

/-- How many bytes stand before the occurrences of a word, where `start` came before the text. Occurrences do not
overlap: `rest` characters still belong to the one before. -/
def matchIndices (word : Text) (start rest : Nat) : Text → List Nat
  | [] => []
  | c :: text =>
    if rest = 0 ∧ word.isPrefixOf (c :: text) then
      start :: matchIndices word (start + c.utf8Size) (word.length - 1) text
    else matchIndices word (start + c.utf8Size) (rest - 1) text

/-- The bytes of a text in UTF-8. -/
def bytes (text : Text) : List UInt8 := text.flatMap String.utf8EncodeChar

@[simp] theorem byteLength_nil : byteLength [] = 0 := rfl

@[simp] theorem byteLength_cons (c : Char) (rest : Text) : byteLength (c :: rest) = c.utf8Size + byteLength rest := rfl

@[simp] theorem byteLength_append (before after : Text) :
    byteLength (before ++ after) = byteLength before + byteLength after := total_append ..

@[simp] theorem bytes_cons (c : Char) (rest : Text) : bytes (c :: rest) = String.utf8EncodeChar c ++ bytes rest := rfl

theorem bytes_append (before after : Text) : bytes (before ++ after) = bytes before ++ bytes after :=
  List.flatMap_append ..

/-- A text takes as many bytes as are stored for it. -/
theorem length_bytes (text : Text) : (bytes text).length = byteLength text := by
  induction text with
  | nil => rfl
  | cons c rest ih => rw [bytes_cons, List.length_append, String.length_utf8EncodeChar, ih, byteLength_cons]

/-- The bytes of a text that stands behind another come later by its length. -/
theorem getElem?_bytes_append (before after : Text) (i : Nat) :
    (bytes (before ++ after))[byteLength before + i]? = (bytes after)[i]? := by
  rw [bytes_append, List.getElem?_append_right (by rw [length_bytes]; omega), length_bytes, Nat.add_sub_cancel_left]

section Ascii

theorem utf8Size_of_lt {c : Char} (ascii : c.toNat < 128) : c.utf8Size = 1 := by
  rw [Char.utf8Size_eq_one_iff, UInt32.le_iff_toNat_le]
  exact Nat.lt_succ_iff.mp ascii

theorem byteLength_of_ascii {text : Text} (ascii : ∀ c ∈ text, c.toNat < 128) : byteLength text = text.length := by
  induction text with
  | nil => rfl
  | cons c rest ih =>
    rw [List.forall_mem_cons] at ascii
    rw [byteLength_cons, utf8Size_of_lt ascii.1, ih ascii.2, List.length_cons, Nat.add_comm]

theorem utf8EncodeChar_of_lt {c : Char} (ascii : c.toNat < 128) : String.utf8EncodeChar c = [c.toUInt8] :=
  String.utf8EncodeChar_eq_singleton (utf8Size_of_lt ascii)

/-- A character beyond ASCII has no byte that stands for an ASCII character. -/
theorem le_of_mem_utf8EncodeChar {c : Char} (high : 128 ≤ c.toNat) {byte : UInt8}
    (member : byte ∈ String.utf8EncodeChar c) : 128 ≤ byte.toNat := by
  have beyond : ¬ c.val.toNat ≤ 127 := Nat.not_le.mpr high
  unfold String.utf8EncodeChar at member
  dsimp only at member
  rw [if_neg beyond] at member
  split at member
  · simp only [List.mem_cons, List.not_mem_nil, or_false] at member
    rcases member with rfl | rfl <;> rw [UInt8.toNat_ofNat'] <;> omega
  · split at member
    · simp only [List.mem_cons, List.not_mem_nil, or_false] at member
      rcases member with rfl | rfl | rfl <;> rw [UInt8.toNat_ofNat'] <;> omega
    · simp only [List.mem_cons, List.not_mem_nil, or_false] at member
      rcases member with rfl | rfl | rfl | rfl <;> rw [UInt8.toNat_ofNat'] <;> omega

theorem toNat_toUInt8 {c : Char} (ascii : c.toNat < 128) : c.toUInt8.toNat = c.toNat := by
  change c.toNat % 256 = c.toNat
  omega

/-- The byte of an ASCII character stands in the encoding of no other. -/
theorem mem_utf8EncodeChar {c mark : Char} (ascii : mark.toNat < 128) :
    mark.toUInt8 ∈ String.utf8EncodeChar c ↔ c = mark := by
  constructor
  · intro member
    by_cases low : c.toNat < 128
    · rw [utf8EncodeChar_of_lt low, List.mem_singleton] at member
      refine Char.toNat_inj.mp ?_
      rw [← toNat_toUInt8 low, ← member, toNat_toUInt8 ascii]
    · have high := le_of_mem_utf8EncodeChar (Nat.le_of_not_lt low) member
      rw [toNat_toUInt8 ascii] at high
      omega
  · rintro rfl
    rw [utf8EncodeChar_of_lt ascii]
    exact List.mem_singleton_self _

end Ascii

/-- The bytes in front of a character, and those that end it, are where a text may be cut. -/
theorem splitAtByte?_append (before after : Text) :
    splitAtByte? (before ++ after) (byteLength before) = some (before, after) := by
  induction before with
  | nil =>
    unfold splitAtByte?
    cases after <;> rfl
  | cons c rest ih =>
    obtain ⟨size, positive⟩ : ∃ size, c.utf8Size = size + 1 := ⟨c.utf8Size - 1, by have := c.utf8Size_pos; omega⟩
    have whole : byteLength (c :: rest) = (size + byteLength rest) + 1 := by
      rw [byteLength_cons, positive]
      omega
    have behind : size + byteLength rest + 1 - c.utf8Size = byteLength rest := by omega
    rw [whole, List.cons_append, splitAtByte?, if_pos (by omega), behind, ih]
    rfl

/-- A text may be cut behind a part of it. -/
theorem upTo?_append (before after : Text) : upTo? (before ++ after) (byteLength before) = some before := by
  rw [upTo?, splitAtByte?_append, Option.map_some]

/-- What follows a part of a text is cut where that part ends. -/
theorem from?_append (before after : Text) : from? (before ++ after) (byteLength before) = some after := by
  rw [from?, splitAtByte?_append, Option.map_some]

theorem upTo?_byteLength (text : Text) : text.upTo? (byteLength text) = some text := by
  have whole := upTo?_append text []
  rwa [List.append_nil] at whole

/-- A part of a text is cut out at both its ends. -/
theorem between?_append (before inside after : Text) :
    between? (before ++ (inside ++ after)) (byteLength before) (byteLength before + byteLength inside) =
      some inside := by
  rw [between?, if_pos (Nat.le_add_right ..), from?_append, Option.bind_some, Nat.add_sub_cancel_left, upTo?_append]

/-- The text behind a character that takes one byte. -/
theorem from?_append_cons {c : Char} (single : c.utf8Size = 1) (before after : Text) :
    from? (before ++ c :: after) (byteLength before + 1) = some after := by
  have cut := from?_append (before ++ [c]) after
  rwa [byteLength_append, byteLength_cons, byteLength_nil, single, List.append_assoc] at cut

/-- Where no such character stands before one, that one is the first. -/
theorem find?_charIndices {p : Nat × Char → Bool} {start : Nat} {before : Text} {c : Char} (after : Text)
    (skipped : ∀ entry ∈ charIndices start before, p entry = false) (found : p (start + byteLength before, c)) :
    (charIndices start (before ++ c :: after)).find? p = some (start + byteLength before, c) := by
  induction before generalizing start with
  | nil =>
    rw [byteLength_nil, Nat.add_zero] at found ⊢
    rw [List.nil_append, charIndices, List.find?_cons_of_pos found]
  | cons d rest ih =>
    have first : p (start, d) = false := skipped _ List.mem_cons_self
    have next : start + byteLength (d :: rest) = start + d.utf8Size + byteLength rest := by
      rw [byteLength_cons]
      omega
    rw [next] at found ⊢
    rw [List.cons_append, charIndices, List.find?_cons_of_neg (by simp [first])]
    exact ih (fun entry member => skipped entry (List.mem_cons_of_mem _ member)) found

/-- Characters behind a text come later by its length. -/
theorem charIndices_append (start : Nat) (before after : Text) :
    charIndices start (before ++ after) = charIndices start before ++ charIndices (start + byteLength before) after := by
  induction before generalizing start with
  | nil => rfl
  | cons c rest ih => simp only [List.cons_append, charIndices, ih, byteLength_cons, Nat.add_assoc]

theorem snd_of_mem_charIndices {start : Nat} {text : Text} {entry : Nat × Char} (member : entry ∈ charIndices start text) :
    start ≤ entry.1 ∧ entry.2 ∈ text := by
  induction text generalizing start with
  | nil => cases member
  | cons c rest ih =>
    rcases List.mem_cons.mp member with rfl | later
    · exact ⟨Nat.le_refl _, List.mem_cons_self⟩
    · obtain ⟨behind, inside⟩ := ih later
      exact ⟨Nat.le_trans (Nat.le_add_right ..) behind, List.mem_cons_of_mem c inside⟩

/-- The first such character is found behind all those that are none. -/
theorem findChar?_append {p : Char → Bool} {before : Text} {c : Char} (skipped : ∀ d ∈ before, p d = false)
    (found : p c) (after : Text) : findChar? p (before ++ c :: after) = some (byteLength before) := by
  have passed (entry : Nat × Char) (member : entry ∈ charIndices 0 before) : p entry.2 = false :=
    skipped entry.2 (snd_of_mem_charIndices member).2
  rw [findChar?, find?_charIndices after passed found, Option.map_some, Nat.zero_add]

theorem findChar?_of_absent {p : Char → Bool} {text : Text} (absent : ∀ d ∈ text, p d = false) :
    findChar? p text = none := by
  rw [findChar?, Option.map_eq_none_iff, List.find?_eq_none]
  intro entry member
  rw [absent _ (snd_of_mem_charIndices member).2]
  decide

/-- The text in front of the first such character, or all of it if there is none. -/
theorem upTo?_findChar? (p : Char → Bool) (text : Text) :
    text.upTo? ((text.findChar? p).getD (byteLength text)) = some (text.takeWhile (!p ·)) := by
  have parts : text.takeWhile (!p ·) ++ text.dropWhile (!p ·) = text := List.takeWhile_append_dropWhile
  have passed (d : Char) (member : d ∈ text.takeWhile (!p ·)) : p d = false := by
    simpa using List.mem_takeWhile_imp member
  cases behind : text.dropWhile (!p ·) with
  | nil =>
    rw [behind, List.append_nil] at parts
    rw [parts] at passed ⊢
    rw [findChar?_of_absent passed]
    exact upTo?_byteLength text
  | cons c after =>
    have stops : p c := by
      have head := List.head?_dropWhile_not (!p ·) text
      rw [behind] at head
      simpa using head
    rw [behind] at parts
    have found := findChar?_append passed stops after
    rw [parts] at found
    rw [found, Option.getD_some]
    have cut := upTo?_append (text.takeWhile (!p ·)) (c :: after)
    rwa [parts] at cut

theorem findChar?_first {c : Char} {before : Text} (absent : c ∉ before) (after : Text) :
    findChar? (· = c) (before ++ c :: after) = some (byteLength before) :=
  findChar?_append (fun d member => decide_eq_false fun same : d = c => absent (same ▸ member)) (decide_eq_true rfl) after

theorem findChar?_of_not_mem {c : Char} {text : Text} (absent : c ∉ text) : findChar? (· = c) text = none :=
  findChar?_of_absent fun d member => decide_eq_false fun same : d = c => absent (same ▸ member)

/-- The last such character is found before all those that are none. -/
theorem findLastChar?_append {c : Char} {after : Text} (absent : c ∉ after) (before : Text) :
    findLastChar? (· = c) (before ++ c :: after) = some (byteLength before) := by
  have behind (start : Nat) : (charIndices start after).reverse.find? (decide <| ·.2 = c) = none := by
    rw [List.find?_eq_none]
    intro entry member same
    rw [← of_decide_eq_true same] at absent
    exact absent (snd_of_mem_charIndices (List.mem_reverse.mp member)).2
  rw [findLastChar?, charIndices_append, charIndices, List.reverse_append, List.reverse_cons, List.append_assoc,
    List.find?_append, behind]
  simp

theorem findLastChar?_of_not_mem {c : Char} {text : Text} (absent : c ∉ text) :
    findLastChar? (· = c) text = none := by
  rw [findLastChar?, Option.map_eq_none_iff, List.find?_eq_none]
  intro entry member same
  rw [← of_decide_eq_true same] at absent
  exact absent (snd_of_mem_charIndices (List.mem_reverse.mp member)).2

end MemoryTrace.Text
