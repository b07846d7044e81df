import Mathlib.Data.List.Find
import MemoryTrace.Proofs.Script.Reading
import MemoryTrace.Proofs.Text.Bytes
import MemoryTrace.Session.Assignment
import MemoryTrace.Session.ClassDefinition

namespace MemoryTrace.Script.Bytewise

open Text

section Comments

/-- The line up to its first `//`. -/
def beforeLineComment? (line : Text) : Option Text :=
  match line.find? "//" with
  | some offset => line.upTo? offset
  | none => some line

/-- Removes the first `/* */` that closes. -/
def withoutBlockComment? (code : Text) : Option Text :=
  match code.find? "/*" with
  | none => some code
  | some start => do
    let inside ← code.from? (start + 2)
    match inside.find? "*/" with
    | none => some code
    | some length =>
      let before ← code.upTo? start
      let after ← code.from? (start + 2 + length + 2)
      some (before ++ after)

/-- The line without its comments. -/
def stripped? (line : Text) : Option Text := (beforeLineComment? line).bind withoutBlockComment?

variable {mark : String} {text before after : Text}

theorem upTo?_around (found : text.around? mark = some (before, after)) :
    text.upTo? (byteLength before) = some before := by
  rw [eq_append_of_around? found, List.append_assoc]
  exact upTo?_append ..

theorem from?_around (found : text.around? mark = some (before, after)) :
    text.from? (byteLength before + byteLength mark.toList) = some after := by
  rw [eq_append_of_around? found, ← byteLength_append]
  exact from?_append ..

theorem beforeLineComment?_eq (line : Text) : beforeLineComment? line = some (beforeLineComment line) := by
  unfold beforeLineComment? beforeLineComment Text.find?
  cases found : line.around? "//" with
  | none => rfl
  | some sides => exact upTo?_around found

theorem stripped?_eq (line : Text) : stripped? line = some (stripComments line) := by
  rw [stripped?, beforeLineComment?_eq, Option.bind_some]
  unfold withoutBlockComment? stripComments Text.find?
  generalize beforeLineComment line = code
  dsimp only
  cases opened : code.around? "/*" with
  | none => rfl
  | some sides =>
    obtain ⟨before, inside⟩ := sides
    have behind : code.from? (byteLength before + 2) = some inside := from?_around opened
    dsimp only [Option.map_some]
    rw [behind, Option.bind_eq_bind, Option.bind_some]
    cases closed : inside.around? "*/" with
    | none => rfl
    | some sides =>
      obtain ⟨comment, after⟩ := sides
      have whole : code = before ++ "/*".toList ++ (comment ++ "*/".toList) ++ after := by
        rw [eq_append_of_around? opened, eq_append_of_around? closed]
        simp only [List.append_assoc]
      have length : byteLength before + 2 + byteLength comment + 2 =
          byteLength (before ++ "/*".toList ++ (comment ++ "*/".toList)) := by
        simp only [byteLength_append]
        rfl
      have rest : code.from? (byteLength before + 2 + byteLength comment + 2) = some after := by
        rw [length, whole]
        exact from?_append ..
      dsimp only [Option.map_some]
      rw [upTo?_around opened, rest]
      rfl

end Comments

section Names

/-- How many bytes the name takes that a text begins with. -/
def nameEnd (text : Text) : Nat :=
  (((charIndices 0 text).find? fun entry => !isNameChar entry.2 || entry.1 = 0 && entry.2.isDigit).map (·.1)).getD
    (byteLength text)

/-- Unless it starts with a digit, a text is cut at its first character that stands in no name. Only the first
character has no bytes in front. -/
theorem upTo?_nameEnd (text : Text) : text.upTo? (nameEnd text) = some (leadingName text) := by
  cases text with
  | nil => rfl
  | cons c rest =>
    by_cases digit : c.isDigit
    · simp [nameEnd, leadingName, charIndices, digit, upTo?, splitAtByte?]
    · have later (entry : Nat × Char) (member : entry ∈ charIndices 0 (c :: rest)) :
          (!isNameChar entry.2 || entry.1 = 0 && entry.2.isDigit) = !isNameChar entry.2 := by
        rcases List.mem_cons.mp member with rfl | behind
        · simp [digit]
        · have positive := c.utf8Size_pos
          have beyond := (snd_of_mem_charIndices behind).1
          have other : entry.1 ≠ 0 := by omega
          simp [other]
      have cut := upTo?_findChar? (!isNameChar ·) (c :: rest)
      simp only [Bool.not_not] at cut
      rw [nameEnd, List.find?_congr later, leadingName, if_neg digit]
      exact cut

/-- What follows the name is cut where the name ends. -/
theorem from?_leadingName (text : Text) : text.from? (byteLength (leadingName text)) = some (afterName text) := by
  have cut := from?_append (leadingName text) (afterName text)
  rwa [leadingName_append_afterName] at cut

end Names

section Pieces

/-- The pieces between the commas at depth zero. `start` is where the piece begins that is being passed. -/
def piecesFrom? (text : Text) (start : Nat) (depth : Int) : List (Nat × Char) → Option (List Text)
  | [] => (text.from? start).map ([·])
  | (offset, c) :: rest =>
    if c = ',' ∧ depth = 0 then do
      let piece ← text.between? start offset
      let pieces ← piecesFrom? text (offset + c.utf8Size) depth rest
      some (piece :: pieces)
    else piecesFrom? text start (depth + nesting c) rest

/-- The pieces between the commas at depth zero. -/
def pieces? (text : Text) : Option (List Text) := piecesFrom? text 0 0 (charIndices 0 text)

/-- The pieces before `piece` are `before`, commas included, and `rest` is still to be passed. -/
theorem piecesFrom?_eq (before piece rest : Text) (depth : Int) :
    piecesFrom? (before ++ (piece ++ rest)) (byteLength before) depth
        (charIndices (byteLength before + byteLength piece) rest) =
      some ((topLevelPieces depth rest).modifyHead (piece ++ ·)) := by
  induction rest generalizing before piece depth with
  | nil =>
    rw [charIndices, piecesFrom?, from?_append]
    rfl
  | cons c rest ih =>
    rw [charIndices, piecesFrom?, topLevelPieces]
    split
    · have next := ih (before ++ (piece ++ [c])) [] depth
      simp only [byteLength_append, byteLength_cons, byteLength_nil, Nat.add_zero, List.append_assoc,
        List.cons_append, List.nil_append] at next
      have unchanged (pieces : List Text) : pieces.modifyHead (fun piece => piece) = pieces :=
        congrFun List.modifyHead_id pieces
      rw [between?_append, Nat.add_assoc, next, unchanged]
      simp
    · have next := ih before (piece ++ [c]) (depth + nesting c)
      simp only [byteLength_append, byteLength_cons, byteLength_nil, Nat.add_zero, List.append_assoc,
        List.cons_append, List.nil_append] at next
      rw [Nat.add_assoc, next, List.modifyHead_modifyHead]
      simp [Function.comp_def]

/-- Parting at commas cuts between characters, since a comma is one byte. -/
theorem pieces?_eq (text : Text) : pieces? text = some (topLevelPieces 0 text) := by
  have all := piecesFrom?_eq [] [] text 0
  rw [List.nil_append, List.nil_append] at all
  rw [pieces?]
  refine all.trans ?_
  cases topLevelPieces 0 text <;> rfl

end Pieces

section Templates

/-- The offset of the angle bracket that brings the depth back to zero. The depth is a natural number, and to go below
zero is to fail. -/
def closingFrom? (depth : Nat) : List (Nat × Char) → Option (Option Nat)
  | [] => some none
  | (offset, c) :: rest =>
    if c = '<' then closingFrom? (depth + 1) rest
    else if c = '>' then
      match depth with
      | 0 => none
      | 1 => some (some offset)
      | depth + 2 => closingFrom? (depth + 1) rest
    else closingFrom? depth rest

/-- The argument between the first angle bracket and the one that closes it, and the text behind. -/
def template? (text : Text) : Option (Option (Text × Text)) :=
  match text.findChar? (· = '<') with
  | none => some none
  | some opening => do
    let opened ← text.from? opening
    match ← closingFrom? 0 (charIndices 0 opened) with
    | none => some none
    | some offset =>
      let argument ← text.between? (opening + 1) (opening + offset)
      let after ← text.from? (opening + offset + 1)
      some (some (argument.trim, after))

/-- The scan by bytes stops at the bracket that the scan by characters stops at. -/
theorem closingFrom?_eq (nested start : Nat) (text : Text) :
    closingFrom? (nested + 1) (charIndices start text) =
      some ((closeAngle? nested text).map fun sides => start + byteLength sides.1) := by
  induction text generalizing nested start with
  | nil => rfl
  | cons c rest ih =>
    have passed (nested : Nat) : closingFrom? (nested + 1) (charIndices (start + c.utf8Size) rest) =
        some (((closeAngle? nested rest).map fun sides => (c :: sides.1, sides.2)).map fun sides =>
          start + byteLength sides.1) := by
      rw [ih, Option.map_map]
      simp only [Function.comp_def, byteLength_cons, Nat.add_assoc]
    rw [charIndices]
    unfold closingFrom? closeAngle?
    dsimp only
    split
    · exact passed (nested + 1)
    · split
      · cases nested with
        | zero => rfl
        | succ nested => exact passed nested
      · exact passed nested

/-- The argument and the text behind its bracket make up the text. -/
theorem closeAngle?_eq_append {nested : Nat} {text argument after : Text}
    (closed : closeAngle? nested text = some (argument, after)) : text = argument ++ '>' :: after := by
  induction text generalizing nested argument with
  | nil => cases closed
  | cons c rest ih =>
    have passed {nested : Nat} (closed : (closeAngle? nested rest).map (fun sides => (c :: sides.1, sides.2)) =
        some (argument, after)) : c :: rest = argument ++ '>' :: after := by
      obtain ⟨sides, later, same⟩ := Option.map_eq_some_iff.mp closed
      obtain ⟨rfl, rfl⟩ := Prod.mk.inj same
      rw [ih later, List.cons_append]
    unfold closeAngle? at closed
    dsimp only at closed
    split at closed
    · exact passed closed
    · split at closed
      · rename_i closes
        split at closed
        · obtain ⟨rfl, rfl⟩ := Prod.mk.inj (Option.some.inj closed)
          rw [closes, List.nil_append]
        · exact passed closed
      · exact passed closed

/-- Looking for a template cuts between characters, and the depth does not fall below zero. -/
theorem template?_eq (text : Text) : template? text = some (splitTemplate? text) := by
  unfold template? splitTemplate?
  by_cases opened : '<' ∈ text
  · obtain ⟨before, inside, rfl, absent⟩ := List.eq_append_cons_of_mem opened
    have scanned : closingFrom? 0 (charIndices 0 ('<' :: inside)) =
        some ((closeAngle? 0 inside).map fun sides => 1 + byteLength sides.1) := closingFrom?_eq 0 1 inside
    rw [findChar?_first absent, dropWhile_ne_append absent]
    dsimp only
    rw [from?_append, Option.bind_eq_bind, Option.bind_some, scanned, Option.bind_eq_bind, Option.bind_some]
    cases closed : closeAngle? 0 inside with
    | none => rfl
    | some sides =>
      obtain ⟨argument, after⟩ := sides
      obtain rfl := closeAngle?_eq_append closed
      have inner : between? (before ++ '<' :: (argument ++ '>' :: after)) (byteLength before + 1)
          (byteLength before + (1 + byteLength argument)) = some argument := by
        have cut := between?_append (before ++ ['<']) argument ('>' :: after)
        rw [byteLength_append, List.append_assoc] at cut
        rw [← Nat.add_assoc]
        exact cut
      have behind : from? (before ++ '<' :: (argument ++ '>' :: after))
          (byteLength before + (1 + byteLength argument) + 1) = some after := by
        have cut := from?_append_cons (c := '>') rfl (before ++ '<' :: argument) after
        rw [byteLength_append, List.append_assoc] at cut
        exact cut
      dsimp only [Option.map_some]
      rw [inner, behind]
      rfl
  · rw [findChar?_of_not_mem opened, dropWhile_of_absent opened]

theorem eq_append_of_splitTemplate? {text argument after : Text} (split : splitTemplate? text = some (argument, after)) :
    ∃ before, text = before ++ after := by
  unfold splitTemplate? at split
  split at split
  · cases split
  · rename_i opening inside opened
    obtain ⟨sides, closed, same⟩ := Option.map_eq_some_iff.mp split
    obtain ⟨_, rfl⟩ := Prod.mk.inj same
    have whole : text.takeWhile (· ≠ '<') ++ text.dropWhile (· ≠ '<') = text := List.takeWhile_append_dropWhile
    rw [opened, closeAngle?_eq_append closed] at whole
    exact ⟨text.takeWhile (· ≠ '<') ++ opening :: (sides.1 ++ ['>']), by simpa using whole.symm⟩

/-- What stands in front of the text behind a template is cut where that begins. -/
theorem upTo?_template {text argument after : Text} (split : splitTemplate? text = some (argument, after)) :
    byteLength after ≤ byteLength text ∧
      text.upTo? (byteLength text - byteLength after) = some (text.take (text.length - after.length)) := by
  obtain ⟨before, rfl⟩ := eq_append_of_splitTemplate? split
  rw [byteLength_append, Nat.add_sub_cancel, upTo?_append, List.length_append, Nat.add_sub_cancel, List.take_left]
  exact ⟨Nat.le_add_left .., rfl⟩

end Templates

section Types

/-- The type in front of arguments, of a length or of braces. -/
def baseType? (text : Text) : Option Text :=
  (text.upTo? ((text.findChar? fun c => c = '(' || c = '[' || c = '{').getD (byteLength text))).map trim

theorem baseType?_eq (text : Text) : baseType? text = some (baseType text) := by
  have opposite : (fun c : Char => c ≠ '(' && c ≠ '[' && c ≠ '{') = fun c => !(c = '(' || c = '[' || c = '{') := by
    funext c
    simp [Bool.and_assoc]
  rw [baseType?, upTo?_findChar?, Option.map_some, baseType, opposite]

/-- The length of an array, where it is a number. -/
def elementCount? (text : Text) : Option (Option Nat) :=
  match text.findChar? (· = '[') with
  | none => some none
  | some opening => (text.from? (opening + 1)).map fun inside => word? (trim (inside.takeWhile (· ≠ ']')))

theorem elementCount?_eq (text : Text) : elementCount? text = some (MemoryTrace.elementCount? text) := by
  unfold elementCount? MemoryTrace.elementCount?
  by_cases opened : '[' ∈ text
  · obtain ⟨before, inside, rfl, absent⟩ := List.eq_append_cons_of_mem opened
    rw [findChar?_first absent, dropWhile_ne_append absent]
    dsimp only
    rw [from?_append_cons rfl, Option.map_some]
  · rw [findChar?_of_not_mem opened, dropWhile_of_absent opened]

end Types

section Classes

/-- The text between the first opening and the last closing brace of a line. -/
def braced? (line : Text) : Option (Option Text) :=
  match line.findChar? (· = '{'), line.findLastChar? (· = '}') with
  | some opening, some closing =>
    if opening < closing then (line.between? (opening + 1) closing).map some else some none
  | _, _ => some none

theorem braced?_eq (line : Text) : braced? line = some (Action.braced? line) := by
  unfold braced? Action.braced?
  by_cases opened : '{' ∈ line
  · obtain ⟨before, inside, rfl, absent⟩ := List.eq_append_cons_of_mem opened
    rw [findChar?_first absent, dropWhile_ne_append absent]
    by_cases closed : '}' ∈ inside
    · obtain ⟨members, after, rfl, last⟩ := exists_last_of_mem closed
      have closing : findLastChar? (· = '}') (before ++ '{' :: (members ++ '}' :: after)) =
          some (byteLength before + 1 + byteLength members) := by
        have found := findLastChar?_append last (before ++ '{' :: members)
        rw [byteLength_append, byteLength_cons, List.append_assoc, ← Nat.add_assoc] at found
        exact found
      have inner : between? (before ++ '{' :: (members ++ '}' :: after)) (byteLength before + 1)
          (byteLength before + 1 + byteLength members) = some members := by
        have cut := between?_append (before ++ ['{']) members ('}' :: after)
        rw [byteLength_append, List.append_assoc] at cut
        exact cut
      rw [closing]
      dsimp only
      rw [if_pos (by omega), inner, beforeLast?_append last]
      rfl
    · dsimp only
      rw [beforeLast?_of_absent closed]
      by_cases earlier : '}' ∈ before
      · obtain ⟨first, second, rfl, last⟩ := exists_last_of_mem earlier
        have absent : '}' ∉ second ++ '{' :: inside := by simp [last, closed]
        have closing := findLastChar?_append absent first
        rw [List.append_assoc, List.cons_append, closing]
        dsimp only
        rw [byteLength_append, if_neg (by omega)]
      · have absent : '}' ∉ before ++ '{' :: inside := by simp [earlier, closed]
        rw [findLastChar?_of_not_mem absent]
  · rw [findChar?_of_not_mem opened, dropWhile_of_absent opened]

/-- Whether the name that stands behind so many bytes is a whole word, with a parenthesis behind it. -/
def isCallAt? (name line : Text) (offset : Nat) : Option Bool := do
  let before ← line.upTo? offset
  if before.getLast?.any isNameChar then some false
  else
    let after ← line.from? (offset + byteLength name)
    some (after.trimStart.startsWith "(")

/-- Whether the name stands somewhere as a whole word with a parenthesis behind it. -/
def calls? (name line : Text) : Option Bool := (matchIndices name 0 0 line).anyM (isCallAt? name line)

theorem isCallAt?_append (name before after : Text) :
    isCallAt? name (before ++ (name ++ after)) (byteLength before) =
      some (!before.getLast?.any isNameChar && after.trimStart.startsWith "(") := by
  have behind : from? (before ++ (name ++ after)) (byteLength before + byteLength name) = some after := by
    have cut := from?_append (before ++ name) after
    rwa [byteLength_append, List.append_assoc] at cut
  rw [isCallAt?, upTo?_append, Option.bind_eq_bind, Option.bind_some, behind]
  split
  · rename_i inside
    rw [inside]
    rfl
  · rename_i outside
    rw [Bool.eq_false_iff.mpr outside]
    rfl

theorem anyM_cons_of_some {α : Type} {f : α → Option Bool} {x : α} {list : List α} {first later : Bool}
    (here : f x = some first) (there : list.anyM f = some later) : (x :: list).anyM f = some (first || later) := by
  rw [List.anyM, here]
  cases first with
  | true => rfl
  | false => exact there

/-- What occurs inside another occurrence is no whole word, so it does not matter that occurrences do not overlap.
`pending` characters of the last occurrence are still to be passed. -/
theorem anyM_matchIndices {name : Text} (named : isName name) (before rest : Text) (pending : Nat)
    (behind : 0 < pending → before.getLast?.any isNameChar) (ahead : ∀ c ∈ rest.take pending, isNameChar c) :
    (matchIndices name (byteLength before) pending rest).anyM (isCallAt? name (before ++ rest)) =
      some (callsFrom name (!before.getLast?.any isNameChar) rest) := by
  induction rest generalizing before pending with
  | nil => rfl
  | cons c rest ih =>
    have next (pending : Nat) (inside : 0 < pending → isNameChar c) (ahead : ∀ d ∈ rest.take pending, isNameChar d) :
        (matchIndices name (byteLength before + c.utf8Size) pending rest).anyM (isCallAt? name (before ++ c :: rest)) =
          some (callsFrom name (!isNameChar c) rest) := by
      have later := ih (before ++ [c]) pending (by simpa using inside) ahead
      simpa using later
    rw [matchIndices, callsFrom]
    split
    · rename_i occurs
      obtain ⟨passed, occurs⟩ := occurs
      obtain ⟨after, whole⟩ := List.isPrefixOf_iff_prefix.mp occurs
      have found : name.isPrefixOf? (c :: rest) = some after := List.isPrefixOf?_eq_some_iff_append_eq.mpr whole
      obtain ⟨first, others, rfl, start, all⟩ := isName_cons named
      obtain ⟨rfl, rest_eq⟩ : first = c ∧ others ++ after = rest := List.cons.inj whole
      have here := isCallAt?_append (first :: others) before after
      rw [whole] at here
      rw [found, Option.any_some]
      refine anyM_cons_of_some here (next _ (fun _ => isNameChar_of_isNameStart start) fun d member => ?_)
      rw [← rest_eq, List.length_cons, Nat.add_sub_cancel, List.take_left] at member
      exact all d (List.mem_cons_of_mem first member)
    · rename_i passes
      have none_here : (!before.getLast?.any isNameChar && (name.isPrefixOf? (c :: rest)).any fun after =>
          (trimStart after).startsWith "(") = false := by
        by_cases passed : pending = 0
        · have missing : name.isPrefixOf? (c :: rest) = none := by
            rw [isPrefixOf?_eq_none_iff, ← List.isPrefixOf_iff_prefix]
            exact fun occurs => passes ⟨passed, occurs⟩
          rw [missing]
          simp
        · rw [behind (Nat.pos_of_ne_zero passed)]
          rfl
      rw [none_here, Bool.false_or]
      refine next (pending - 1) (fun more => ?_) fun d member => ?_
      · obtain ⟨less, rfl⟩ : ∃ less, pending = less + 1 := ⟨pending - 1, by omega⟩
        exact ahead c List.mem_cons_self
      · cases pending with
        | zero => cases member
        | succ less => exact ahead d (List.mem_cons_of_mem c member)

/-- Looking for a call cuts between characters. As all these readers do, it comes to what the one by characters
reads. -/
theorem calls?_eq {name : Text} (named : isName name) (line : Text) : calls? name line = some (callsName name line) :=
  anyM_matchIndices named [] line 0 (by omega) nofun

end Classes

end MemoryTrace.Script.Bytewise
