import Mathlib.Data.List.Forall2
import MemoryTrace.Proofs.Script.SmartLine
import MemoryTrace.Proofs.Text.Bytes

namespace MemoryTrace.Script

open Text

section Pieces

/-- How much deeper a text ends than it starts. -/
def depthChange : Text → Int
  | [] => 0
  | c :: rest => nesting c + depthChange rest

@[simp] theorem depthChange_nil : depthChange [] = 0 := rfl

@[simp] theorem depthChange_cons (c : Char) (rest : Text) : depthChange (c :: rest) = nesting c + depthChange rest := rfl

@[simp] theorem depthChange_append (before after : Text) :
    depthChange (before ++ after) = depthChange before + depthChange after := by
  induction before with
  | nil => exact (Int.zero_add _).symm
  | cons c rest ih => rw [List.cons_append, depthChange_cons, depthChange_cons, ih, Int.add_assoc]

/-- A text without brackets ends as deep as it starts. -/
theorem depthChange_of_plain {text : Text} (plain : ∀ c ∈ text, nesting c = 0) : depthChange text = 0 := by
  induction text with
  | nil => rfl
  | cons c rest ih =>
    rw [List.forall_mem_cons] at plain
    rw [depthChange_cons, plain.1, ih plain.2, Int.add_zero]

/-- Every bracket counts alike, whatever its kind. -/
theorem depthChange_eq_count (text : Text) :
    depthChange text = text.count '(' - text.count ')' + (text.count '[' - text.count ']') +
      (text.count '<' - text.count '>' : Int) := by
  induction text with
  | nil => rfl
  | cons c rest ih =>
    rw [depthChange_cons, ih]
    simp only [List.count_cons, nesting, beq_iff_eq]
    grind

variable {piece : Text} {depth : Int}

/-- A piece that no comma parts stays together with what follows it. -/
theorem topLevelPieces_append (one : topLevelPieces depth piece = [piece]) (rest : Text) :
    topLevelPieces depth (piece ++ rest) = (topLevelPieces (depth + depthChange piece) rest).modifyHead (piece ++ ·) := by
  induction piece generalizing depth with
  | nil =>
    rw [depthChange_nil, Int.add_zero]
    exact (congrFun List.modifyHead_id _).symm
  | cons c others ih =>
    rw [topLevelPieces] at one
    rw [List.cons_append, topLevelPieces]
    split at one
    · simp at one
    · rename_i inner
      have later : topLevelPieces (depth + nesting c) others = [others] := by
        cases parted : topLevelPieces (depth + nesting c) others with
        | nil => simp [parted] at one
        | cons first more => simpa [parted] using one
      rw [if_neg inner, ih later, List.modifyHead_modifyHead, depthChange_cons, Int.add_assoc]
      rfl

/-- A comma parts two pieces where the first closes what it opens. -/
theorem topLevelPieces_comma (one : topLevelPieces depth piece = [piece]) (closed : depth + depthChange piece = 0)
    (rest : Text) : topLevelPieces depth (piece ++ ',' :: rest) = piece :: topLevelPieces 0 rest := by
  rw [topLevelPieces_append one, closed, topLevelPieces, if_pos ⟨rfl, rfl⟩, List.modifyHead_cons, List.append_nil]

theorem length_topLevelPieces_comma (one : topLevelPieces depth piece = [piece]) (opened : depth + depthChange piece ≠ 0)
    (rest : Text) : (topLevelPieces depth (piece ++ ',' :: rest)).length =
      (topLevelPieces (depth + depthChange piece) rest).length := by
  rw [topLevelPieces_append one, List.length_modifyHead, topLevelPieces, if_neg fun both => opened both.2,
    List.length_modifyHead]
  simp [nesting]

/-- A text whose commas all stand deeper or less deep is one piece. -/
theorem topLevelPieces_of_inner (inner : ∀ before after, piece = before ++ ',' :: after → depth + depthChange before ≠ 0) :
    topLevelPieces depth piece = [piece] := by
  induction piece generalizing depth with
  | nil => rfl
  | cons c rest ih =>
    have here : ¬ (c = ',' ∧ depth = 0) := by
      rintro ⟨rfl, rfl⟩
      exact inner [] rest rfl rfl
    have later : topLevelPieces (depth + nesting c) rest = [rest] := ih fun before after whole => by
      have outer := inner (c :: before) after (by rw [whole, List.cons_append])
      rwa [depthChange_cons, ← Int.add_assoc] at outer
    rw [topLevelPieces, if_neg here, later]
    rfl

/-- Declarators one behind the other, as in `a, *b, c[4]`. -/
def commaSeparated (list : List Text) : Text := [',', ' '].intercalate list

/-- What is put together from pieces with solid ends has solid ends. -/
theorem bounded_intercalate {p : Char → Bool} {list : List Text} (nonempty : list ≠ []) (each : ∀ x ∈ list, Bounded p x)
    (between : Text) : Bounded p (between.intercalate list) := by
  induction list with
  | nil => exact absurd rfl nonempty
  | cons first rest ih =>
    rw [List.forall_mem_cons] at each
    cases rest with
    | nil => exact List.intercalate_singleton ▸ each.1
    | cons next others =>
      rw [List.intercalate_cons_cons, List.append_assoc]
      exact each.1.join (ih (by simp) each.2) between

theorem commaSeparated_cons (first next : Text) (rest : List Text) :
    ' ' :: commaSeparated (first :: next :: rest) = (' ' :: first) ++ ',' :: ' ' :: commaSeparated (next :: rest) := by
  simp [commaSeparated]

/-- Pieces that close what they open, and that no comma parts, are what a list of them is parted into. -/
theorem topLevelPieces_commaSeparated {list : List Text} (nonempty : list ≠ [])
    (each : ∀ x ∈ list, topLevelPieces 0 (' ' :: x) = [' ' :: x] ∧ depthChange (' ' :: x) = 0) :
    topLevelPieces 0 (' ' :: commaSeparated list) = list.map (' ' :: ·) := by
  induction list with
  | nil => exact absurd rfl nonempty
  | cons first rest ih =>
    rw [List.forall_mem_cons] at each
    obtain ⟨⟨one, closed⟩, later⟩ := each
    cases rest with
    | nil => simpa [commaSeparated] using one
    | cons next others =>
      rw [commaSeparated_cons, topLevelPieces_comma one (by rw [closed, Int.add_zero]), ih (by simp) later]
      rfl

end Pieces

section Types

/-- A name is primitive if it is a primitive word. -/
theorem isPrimitive_iff {name : Text} (named : isName name) : isPrimitive name ↔ IsPrimitiveWord name := by
  have solid (c : Char) (member : c ∈ name) : isBlank c = false := isBlank_of_isNameChar (isNameChar_of_mem named member)
  have word : words name = [name] := by
    rw [words, fields, List.splitOnP_eq_singleton solid, List.filter_cons_of_pos]
    · rfl
    · simpa using ne_nil_of_isName named
  have unscoped : withoutStd name = name := by
    rw [withoutStd, afterStart?_of_absent (c := ':') (by decide) (not_mem_of_isName named (by decide))]
    rfl
  have size : primitiveSize? name = keywordSize? name := by
    rw [primitiveSize?, word]
    cases found : keywordSize? name <;> simp [found]
  rw [isPrimitive, size, keywordSize?, Option.isSome_map, unscoped, List.find?_isSome, IsPrimitiveWord, List.any_eq_true]

theorem isPrimitive_leadingName {text : Text} (primitive : isPrimitive (leadingName text)) :
    isName (leadingName text) ∧ IsPrimitiveWord (leadingName text) := by
  have named : isName (leadingName text) := isName_leadingName fun empty => by
    rw [empty] at primitive
    exact absurd primitive (by decide)
  exact ⟨named, (isPrimitive_iff named).mp primitive⟩

theorem IsPrimitiveWord.not_qualifier {T : Text} (primitive : IsPrimitiveWord T) : ¬ qualifiers.any (·.toList = T) := by
  obtain ⟨entry, member, same⟩ := List.any_eq_true.mp primitive
  obtain rfl := of_decide_eq_true same
  have all : primitiveSizes.all fun entry => !qualifiers.any (·.toList = entry.1.toList) := by decide
  simpa using List.all_eq_true.mp all entry member

/-- Behind a blank, something follows that is no end of a name. -/
def GoesOn (text : Text) : Prop := ∃ c more, text = ' ' :: c :: more ∧ isBlank c = false ∧ c ∉ nameEnds

theorem GoesOn.stop {text : Text} (goes_on : GoesOn text) : ∀ c ∈ text.head?, isNameChar c = false := by
  obtain ⟨c, more, rfl, _⟩ := goes_on
  rintro d ⟨⟩
  decide

theorem GoesOn.of_isName {name : Text} (named : isName name) (rest : Text) : GoesOn (' ' :: (name ++ rest)) := by
  obtain ⟨c, others, rfl, start, _⟩ := isName_cons named
  have letter := isNameChar_of_isNameStart start
  refine ⟨c, others ++ rest, rfl, isBlank_of_isNameChar letter, fun ends => ?_⟩
  have marks : nameEnds.all (! isNameChar ·) := by decide
  have mark := List.all_eq_true.mp marks c ends
  rw [letter] at mark
  contradiction

/-- The next word is one of the type if it is primitive and something else follows that is declared. -/
theorem nextTypeWord?_word {word after : Text} (named : isName word) (primitive : IsPrimitiveWord word)
    (goes_on : GoesOn after) : nextTypeWord? (' ' :: (word ++ after)) = some (word, after) := by
  have stop := goes_on.stop
  obtain ⟨c, more, spaced, solid, declares⟩ := goes_on
  have start : trimStart (' ' :: (word ++ after)) = word ++ after := by
    obtain ⟨d, others, rfl, letter, _⟩ := isName_cons named
    rw [trimStart, List.dropWhile_cons_of_pos (by decide)]
    exact trimStart_of_head (isBlank_of_isNameChar (isNameChar_of_isNameStart letter))
  have behind : trimStart after = c :: more := by
    rw [spaced, trimStart, List.dropWhile_cons_of_pos (by decide)]
    exact trimStart_of_head solid
  unfold nextTypeWord?
  dsimp only
  rw [start, leadingName_append named stop, afterName_append named stop, behind, (isPrimitive_iff named).mpr primitive]
  simp [declares]

theorem joinTypeWords_of_none {typeName text : Text} (last : nextTypeWord? text = none) :
    joinTypeWords typeName text = (typeName, text) := by
  rw [joinTypeWords]
  split
  · rename_i found
    exact nomatch last.symm.trans found
  · rfl

theorem joinTypeWords_of_some {typeName text word after : Text} (next : nextTypeWord? text = some (word, after)) :
    joinTypeWords typeName text = joinTypeWords (typeName ++ ' ' :: word) after := by
  rw [joinTypeWords]
  split
  · rename_i found
    obtain ⟨rfl, rfl⟩ := Prod.mk.inj (Option.some.inj (next.symm.trans found))
    rfl
  · rename_i missing
    exact nomatch next.symm.trans missing

/-- The type of a declaration: a name that is no qualifier, or primitive words with single spaces between them. -/
inductive IsTypeName : Text → Prop
  | name {T : Text} : isName T → ¬ qualifiers.any (·.toList = T) → IsTypeName T
  | words {list : List Text} : list ≠ [] → (∀ word ∈ list, IsPrimitiveWord word) → IsTypeName ([' '].intercalate list)

variable {T rest : Text}

theorem intercalate_words (first : Text) (others : List Text) :
    [' '].intercalate (first :: others) = first ++ others.flatMap (' ' :: ·) := by
  induction others generalizing first with
  | nil => simp
  | cons next others ih =>
    rw [List.intercalate_cons_cons, ih, List.append_assoc]
    rfl

theorem stop_words {list : List Text} (stop : ∀ c ∈ rest.head?, isNameChar c = false) :
    ∀ c ∈ (list.flatMap (' ' :: ·) ++ rest).head?, isNameChar c = false := by
  cases list with
  | nil => exact stop
  | cons word others =>
    rintro c ⟨⟩
    decide

/-- The words of a type are joined until what is declared follows. -/
theorem joinTypeWords_words {list : List Text} (primitive : ∀ word ∈ list, IsPrimitiveWord word) (goes_on : GoesOn rest)
    (last : nextTypeWord? rest = none) (typeName : Text) :
    joinTypeWords typeName (list.flatMap (' ' :: ·) ++ rest) = (typeName ++ list.flatMap (' ' :: ·), rest) := by
  induction list generalizing typeName with
  | nil => simpa using joinTypeWords_of_none last
  | cons word others ih =>
    rw [List.forall_mem_cons] at primitive
    have later : GoesOn (others.flatMap (' ' :: ·) ++ rest) := by
      cases others with
      | nil => exact goes_on
      | cons next more =>
        rw [List.flatMap_cons, List.append_assoc]
        exact .of_isName (primitive.2 next List.mem_cons_self).spelled.1 _
    have next := nextTypeWord?_word primitive.1.spelled.1 primitive.1 later
    rw [List.flatMap_cons, List.append_assoc, List.cons_append, joinTypeWords_of_some next, ih primitive.2,
      List.append_assoc, List.cons_append]

/-- Behind a name, words are joined to it if it is primitive. -/
theorem leadingType?_of_isName {name : Text} (named : isName name) (stop : ∀ c ∈ rest.head?, isNameChar c = false) :
    leadingType? (name ++ rest) = some (if isPrimitive name then joinTypeWords name rest else (name, rest)) := by
  have nonempty : name.isEmpty = false := by simpa using ne_nil_of_isName named
  rw [leadingType?, leadingName_append named stop, afterName_append named stop, nonempty, if_neg (by decide)]
  split <;> rfl

namespace IsTypeName

/-- A type begins and ends with characters that trimming leaves. -/
theorem solid (type : IsTypeName T) : Bounded isMargin T := by
  cases type with
  | name named _ => exact bounded_of_isName named
  | words nonempty primitive =>
    exact bounded_intercalate nonempty (fun word member => bounded_of_isName (primitive word member).spelled.1) [' ']

/-- A type is a name with words behind it, which are primitive, and the name is if there are any. -/
theorem spelled (type : IsTypeName T) : ∃ first others, T = first ++ others.flatMap (' ' :: ·) ∧ isName first ∧
    ¬ qualifiers.any (·.toList = first) ∧ (others = [] ∨ IsPrimitiveWord first) ∧
      ∀ word ∈ others, IsPrimitiveWord word := by
  cases type with
  | name named unqualified => exact ⟨T, [], by simp, named, unqualified, .inl rfl, nofun⟩
  | @words list nonempty primitive =>
    obtain ⟨first, others, rfl⟩ := List.exists_cons_of_ne_nil nonempty
    rw [List.forall_mem_cons] at primitive
    exact ⟨first, others, intercalate_words first others, primitive.1.spelled.1, primitive.1.not_qualifier,
      .inr primitive.1, primitive.2⟩

/-- A type that begins with no qualifier loses none. -/
theorem stripQualifiers (type : IsTypeName T) (stop : ∀ c ∈ rest.head?, isNameChar c = false) :
    stripQualifiers (T ++ rest) = T ++ rest := by
  obtain ⟨first, others, rfl, named, unqualified, _⟩ := type.spelled
  rw [List.append_assoc]
  exact stripQualifiers_of_name named unqualified (stop_words stop)

/-- A type is read as it is written, up to what is declared. -/
theorem leadingType? (type : IsTypeName T) (goes_on : GoesOn rest) (last : nextTypeWord? rest = none) :
    leadingType? (T ++ rest) = some (T, rest) := by
  obtain ⟨first, others, rfl, named, _, first_primitive, primitive⟩ := type.spelled
  rw [List.append_assoc, leadingType?_of_isName named (stop_words goes_on.stop),
    joinTypeWords_words primitive goes_on last]
  split
  · rfl
  · rename_i foreign
    obtain rfl := first_primitive.resolve_right fun primitive => foreign ((isPrimitive_iff named).mpr primitive)
    simp

end IsTypeName

end Types

section Reading

namespace Declarator

variable {T place piece : Text} {d : Declarator}

/-- A declarator keeps the type it is read with, and declares a name. -/
theorem of_ofPlace {init : Option Text} (made : ofPlace T place init = .ok d) : d.typeName = T ∧ isName d.name := by
  unfold ofPlace at made
  cases cut : cutStars place with
  | error fault =>
    rw [cut] at made
    contradiction
  | ok sides =>
    rw [cut] at made
    simp only [bind, Except.bind] at made
    split at made
    · contradiction
    · rename_i nonempty
      split at made
      · contradiction
      · obtain rfl := Except.ok.inj made
        exact ⟨rfl, isName_leadingName (by simpa using nonempty)⟩

section Run

variable {run name tail : Text} {length : Option Nat} (stars : ∀ c ∈ run, c = '*' ∨ c = ' ')

include stars

/-- Stars and spaces take a byte each, so they are cut off where they end. -/
theorem cutStars_run {rest : Text} (stop : ∀ c ∈ rest.head?, c ≠ '*' ∧ isBlank c = false) :
    cutStars (run ++ rest) = .ok (run, rest) := by
  have skipped : ∀ c ∈ run, (decide (c = '*') || isBlank c) = true := fun c member => by
    rcases stars c member with rfl | rfl <;> decide
  have ascii : ∀ c ∈ run, c.toNat < 128 := fun c member => by rcases stars c member with rfl | rfl <;> decide
  have stopped : rest.takeWhile (fun c => c = '*' || isBlank c) = [] := by
    cases rest with
    | nil => rfl
    | cons c others =>
      obtain ⟨no_star, solid⟩ := stop c rfl
      exact List.takeWhile_cons_of_neg (by simp [no_star, solid])
  rw [cutStars, List.takeWhile_append_of_pos skipped, stopped, List.append_nil, ← byteLength_of_ascii ascii,
    splitAtByte?_append]

/-- What is read in front of an initialiser: a run of stars, a name and what follows the name. -/
theorem ofPlace_run (named : isName name) (apart : ∀ c ∈ tail.head?, isNameChar c = false)
    (measured : declaredLength tail.trim = .ok length) (T : Text) (init : Option Text) :
    ofPlace T (run ++ (name ++ tail)) init =
      .ok { typeName := T, name, pointer := run.contains '*', arrayLength := length, init } := by
  obtain ⟨c, rest, spelled, start, _⟩ := isName_cons named
  have letter := isNameChar_of_isNameStart start
  have solid := isBlank_of_isNameChar letter
  have cut : cutStars (run ++ (name ++ tail)) = .ok (run, name ++ tail) := by
    refine cutStars_run stars ?_
    rw [spelled]
    rintro d ⟨⟩
    exact ⟨ne_of_isNameChar letter (by decide), solid⟩
  have unmarked : trimStart ((name ++ tail).dropWhile (· = '&')) = name ++ tail := by
    have other : c ≠ '&' := ne_of_isNameChar letter (by decide)
    rw [spelled, List.cons_append, List.dropWhile_cons_of_neg (by simpa using other), trimStart_of_head solid]
  have nonempty : name.isEmpty = false := by simpa using ne_nil_of_isName named
  unfold ofPlace
  rw [cut]
  simp only [bind, Except.bind]
  rw [unmarked, leadingName_append named apart, afterName_append named apart, nonempty, measured]
  rfl

end Run

/-- A declarator has the type in front of it, and an identifier. -/
theorem of_read (made : Declarator.read T piece = .ok d) : d.typeName = T ∧ isName d.name := by
  unfold Declarator.read at made
  split at made
  · split at made
    · contradiction
    · exact of_ofPlace made
  · exact of_ofPlace made

end Declarator

/-- A list of readings goes through where each does. -/
theorem mapM_eq_ok_iff {α β ε : Type} {f : α → Except ε β} {list : List α} {results : List β} :
    list.mapM f = .ok results ↔ List.Forall₂ (fun x y => f x = .ok y) list results := by
  induction list generalizing results with
  | nil =>
    rw [List.forall₂_nil_left_iff]
    exact ⟨fun same => (Except.ok.inj same).symm, fun same => same ▸ rfl⟩
  | cons x rest ih =>
    rw [List.mapM_cons, List.forall₂_cons_left_iff]
    cases first : f x with
    | error e => simp [bind, Except.bind]
    | ok y =>
      cases later : rest.mapM f with
      | error e =>
        have missing (others : List β) : ¬ List.Forall₂ (fun x y => f x = .ok y) rest others := fun each =>
          nomatch later.symm.trans (ih.mpr each)
        simp [bind, Except.bind, missing]
      | ok ys =>
        have same (others : List β) : List.Forall₂ (fun x y => f x = .ok y) rest others ↔ ys = others := by
          rw [← ih, later, Except.ok.injEq]
        simp [bind, Except.bind, pure, Except.pure, same, eq_comm]

/-- A declaration is read if its type is, and each of its pieces. -/
theorem readDeclaration_eq_ok_iff {text : Text} {ds : List Declarator} : readDeclaration text = .ok ds ↔
    ∃ T rest, leadingType? (stripQualifiers (trimStatement text)) = some (T, rest) ∧
      List.Forall₂ (fun piece d => Declarator.read T piece = .ok d) (topLevelPieces 0 rest) ds := by
  rw [readDeclaration]
  cases typed : leadingType? (stripQualifiers (trimStatement text)) with
  | none => simp
  | some parts => simp [← mapM_eq_ok_iff, Prod.ext_iff]

end Reading

end MemoryTrace.Script
