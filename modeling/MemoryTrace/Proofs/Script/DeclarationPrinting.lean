import MemoryTrace.Proofs.Script.DeclarationParts

namespace MemoryTrace.Script

open Text

/-- The text of an initialiser in a list. It closes the brackets that it opens, and its commas stand inside them. -/
structure IsListInitialiser (e : Text) : Prop where
  nonempty : e ≠ []
  trimmed : e.trim = e
  unended : e.getLast? ≠ some ';'
  closed : depthChange e = 0
  inner : ∀ before after, e = before ++ ',' :: after → depthChange before ≠ 0

instance (e : Text) : Decidable (IsListInitialiser e) :=
  decidable_of_iff (e ≠ [] ∧ e.trim = e ∧ e.getLast? ≠ some ';' ∧ depthChange e = 0 ∧
      ∀ i < e.length, e[i]? = some ',' → depthChange (e.take i) ≠ 0) <| by
    constructor
    · rintro ⟨nonempty, trimmed, unended, closed, inner⟩
      refine ⟨nonempty, trimmed, unended, closed, ?_⟩
      rintro before after rfl
      simpa using inner before.length (by simp) (by simp)
    · rintro ⟨nonempty, trimmed, unended, closed, inner⟩
      refine ⟨nonempty, trimmed, unended, closed, fun i inside comma => inner (e.take i) (e.drop (i + 1)) ?_⟩
      rw [List.getElem?_eq_getElem inside] at comma
      rw [← Option.some.inj comma, List.getElem_cons_drop, List.take_append_drop]

namespace Declarator

/-- What is written as it is read. -/
structure Printable (d : Declarator) : Prop where
  named : isName d.name
  not_type : ¬ IsPrimitiveWord d.name
  length : ∀ n ∈ d.arrayLength, n ≤ largestWord
  init : ∀ e ∈ d.init, IsListInitialiser e

/-- The length of an array, in brackets. -/
def dimension : Option Nat → Text
  | none => []
  | some n => '[' :: (Nat.toDigits 10 n ++ [']'])

/-- What stands in front of the initialiser. -/
def place (d : Declarator) : Text := (if d.pointer then ['*'] else []) ++ (d.name ++ dimension d.arrayLength)

/-- A declarator without its type: `*p[4] = init`. -/
def printed (d : Declarator) : Text :=
  match d.init with
  | none => d.place
  | some e => d.place ++ ' ' :: '=' :: ' ' :: e

end Declarator

/-- A type with its declarators behind it. -/
def printedDeclaration (T : Text) (ds : List Declarator) : Text := T ++ ' ' :: commaSeparated (ds.map (·.printed))

section Digits

variable (n : Nat)

theorem isNameChar_of_mem_digits {c : Char} (member : c ∈ Nat.toDigits 10 n) : isNameChar c := by
  have digit : c.isDigit := Nat.isDigit_of_mem_toDigits (by decide) (by decide) member
  simp [isNameChar, Char.isAlphanum, digit]

theorem not_mem_digits {c : Char} (mark : isNameChar c = false) : c ∉ Nat.toDigits 10 n := fun member =>
  ne_of_isNameChar (isNameChar_of_mem_digits n member) mark rfl

/-- A number is read from its digits if a word can hold it. -/
theorem word?_digits (fits : n ≤ largestWord) : word? (Nat.toDigits 10 n) = some n := by
  have unsigned : afterStart? "+" (Nat.toDigits 10 n) = none :=
    afterStart?_of_absent (c := '+') (by decide) (not_mem_digits n (by decide))
  have digits : (Nat.toDigits 10 n).all Char.isDigit :=
    List.all_eq_true.mpr fun c member => Nat.isDigit_of_mem_toDigits (by decide) (by decide) member
  have value : digits? (Nat.toDigits 10 n) = some (Nat.ofDigitChars 10 (Nat.toDigits 10 n) 0) :=
    if_pos ⟨Nat.toDigits_ne_nil, digits⟩
  rw [Nat.ofDigitChars_toDigits (by decide) (by decide)] at value
  rw [word?, unsigned, Option.getD_none, value, Option.filter_some, decide_eq_true fits]
  rfl

end Digits

namespace Declarator

variable {d : Declarator}

theorem declaredLength_dimension {length : Option Nat} (fits : ∀ n ∈ length, n ≤ largestWord) :
    declaredLength (trim (dimension length)) = .ok length := by
  cases length with
  | none => rfl
  | some n =>
    have digits : trim (Nat.toDigits 10 n) = Nat.toDigits 10 n := by
      refine trim_of_bounded (.of_all Nat.toDigits_ne_nil fun c member => ?_)
      exact isBlank_of_isNameChar (isNameChar_of_mem_digits n member)
    have whole : trim (dimension (some n)) = '[' :: (Nat.toDigits 10 n ++ [']']) :=
      trim_of_bounded ⟨⟨'[', _, rfl, by decide⟩, ⟨'[' :: Nat.toDigits 10 n, ']', rfl, by decide⟩⟩
    rw [whole, declaredLength, takeWhile_ne_append (not_mem_digits n (by decide)), digits, word?_digits n (fits n rfl)]

/-- No mark but the brackets of a length follows the name. -/
theorem mem_dimension {length : Option Nat} {c : Char} (member : c ∈ dimension length) :
    isNameChar c ∨ c = '[' ∨ c = ']' := by
  cases length with
  | none => contradiction
  | some n =>
    rw [dimension, List.mem_cons, List.mem_append, List.mem_singleton] at member
    rcases member with opens | digit | closes
    · exact .inr (.inl opens)
    · exact .inl (isNameChar_of_mem_digits n digit)
    · exact .inr (.inr closes)

theorem dimension_stop (length : Option Nat) : ∀ c ∈ (dimension length).head?, isNameChar c = false := by
  cases length with
  | none => nofun
  | some n =>
    rintro c ⟨⟩
    decide

theorem depthChange_of_names {text : Text} (letters : ∀ c ∈ text, isNameChar c) : depthChange text = 0 := by
  refine depthChange_of_plain fun c member => ?_
  have other (mark : Char) (foreign : isNameChar mark = false) : c ≠ mark := ne_of_isNameChar (letters c member) foreign
  have not_opening : ¬ (c = '(' ∨ c = '[' ∨ c = '<') := by
    simp [other '(' (by decide), other '[' (by decide), other '<' (by decide)]
  have not_closing : ¬ (c = ')' ∨ c = ']' ∨ c = '>') := by
    simp [other ')' (by decide), other ']' (by decide), other '>' (by decide)]
  rw [nesting, if_neg not_opening, if_neg not_closing]

theorem depthChange_dimension (length : Option Nat) : depthChange (dimension length) = 0 := by
  cases length with
  | none => rfl
  | some n =>
    rw [dimension, depthChange_cons, depthChange_append, depthChange_of_names fun c => isNameChar_of_mem_digits n]
    rfl

section Place

variable (named : isName d.name)

include named

theorem not_mem_place {c : Char} (mark : isNameChar c = false) (foreign : c ∉ ['*', '[', ']']) : c ∉ d.place := by
  intro member
  rw [place, List.mem_append, List.mem_append] at member
  rcases member with star | name | length
  · split at star
    · rw [List.mem_singleton.mp star] at foreign
      exact foreign (by decide)
    · contradiction
  · exact not_mem_of_isName named mark name
  · rcases mem_dimension length with letter | rfl | rfl
    · exact ne_of_isNameChar letter mark rfl
    · exact foreign (by decide)
    · exact foreign (by decide)

theorem depthChange_place : depthChange d.place = 0 := by
  rw [place, depthChange_append, depthChange_append, depthChange_of_names fun c => isNameChar_of_mem named,
    depthChange_dimension]
  split <;> rfl

/-- What stands in front of an initialiser has solid ends. -/
theorem place_solid : Bounded isMargin d.place := by
  have ends : Bounded isMargin (d.name ++ dimension d.arrayLength) := by
    cases d.arrayLength with
    | none => simpa [dimension] using bounded_of_isName named
    | some n =>
      have bracket : Bounded isMargin [']'] := ⟨⟨']', [], rfl, by decide⟩, ⟨[], ']', rfl, by decide⟩⟩
      simpa [dimension] using (bounded_of_isName named).join bracket ('[' :: Nat.toDigits 10 n)
  rw [place]
  split
  · have star : Bounded isMargin ['*'] := ⟨⟨'*', [], rfl, by decide⟩, ⟨[], '*', rfl, by decide⟩⟩
    exact star.join ends []
  · exact ends

/-- What stands in front of an initialiser is read back. -/
theorem ofPlace_place (fits : ∀ n ∈ d.arrayLength, n ≤ largestWord) (T : Text) (init : Option Text) :
    ofPlace T d.place init =
      .ok { typeName := T, name := d.name, pointer := d.pointer, arrayLength := d.arrayLength, init } := by
  have stars : ∀ c ∈ (if d.pointer then ['*'] else []), c = '*' ∨ c = ' ' := by cases d.pointer <;> simp
  have starred : (if d.pointer then ['*'] else []).contains '*' = d.pointer := by cases d.pointer <;> rfl
  rw [place, ofPlace_run stars named (dimension_stop d.arrayLength) (declaredLength_dimension fits), starred]

end Place

/-- No character of a name follows the name. -/
theorem spelled (d : Declarator) : ∃ rest, d.printed = (if d.pointer then ['*'] else []) ++ (d.name ++ rest) ∧
    ∀ c ∈ rest.head?, isNameChar c = false := by
  rw [printed, place]
  cases d.init with
  | none => exact ⟨dimension d.arrayLength, rfl, dimension_stop d.arrayLength⟩
  | some e =>
    refine ⟨dimension d.arrayLength ++ ' ' :: '=' :: ' ' :: e, by simp, ?_⟩
    cases d.arrayLength <;> (rintro c ⟨⟩; decide)

namespace Printable

variable (printable : d.Printable)

include printable

theorem solid : Bounded isMargin d.printed := by
  have place := place_solid printable.named
  rw [printed]
  cases init : d.init with
  | none => exact place
  | some e =>
    have value := printable.init e init
    obtain ⟨others, c, ends, last⟩ := (bounded_of_trim value.nonempty value.trimmed).last
    have whole : Bounded isMargin [c] := by
      have margin : isMargin c = false := by
        rw [isMargin, last, Bool.false_or]
        refine decide_eq_false fun same => value.unended ?_
        rw [ends, List.getLast?_concat, same]
      exact ⟨⟨c, [], rfl, margin⟩, ⟨[], c, rfl, margin⟩⟩
    simpa [ends] using place.join whole (' ' :: '=' :: ' ' :: others)

/-- A declarator is read from what is written. -/
theorem read : Declarator.read d.typeName (' ' :: d.printed) = .ok d := by
  have named := printable.named
  have no_sign : '=' ∉ ' ' :: d.place := by simpa using not_mem_place named (c := '=') (by decide) (by decide)
  have blanks := bounded_isBlank (place_solid named)
  rw [printed, Declarator.read]
  cases init : d.init with
  | none =>
    rw [splitAssignment?_of_absent no_sign]
    dsimp only
    rw [trim_blank_cons (by decide), trim_of_bounded blanks, ofPlace_place named printable.length, ← init]
  | some e =>
    have value := printable.init e init
    have kept : trimStatement e = e := by
      have ends : dropEndWhile (· = ';') e = e := by
        obtain ⟨others, c, rfl, _⟩ := (bounded_of_trim value.nonempty value.trimmed).last
        refine dropEndWhile_append_of_neg (decide_eq_false fun same => value.unended ?_) others
        rw [List.getLast?_concat, same]
      rw [trimStatement, value.trimmed, ends]
      exact (bounded_of_trim value.nonempty value.trimmed).dropEndWhile
    have splits := splitAssignment?_spaced no_sign e
    have target : trim (' ' :: d.place ++ [' ']) = d.place := by
      rw [List.cons_append, trim_blank_cons (by decide), trim_append_blank blanks (by decide)]
    rw [target, kept] at splits
    rw [List.cons_append] at splits
    dsimp only
    rw [splits]
    dsimp only
    rw [if_neg (by decide), ofPlace_place named printable.length, ← init]

/-- What is written is one piece of a list. -/
theorem piece : topLevelPieces 0 (' ' :: d.printed) = [' ' :: d.printed] ∧ depthChange (' ' :: d.printed) = 0 := by
  have named := printable.named
  have single : ',' ∉ ' ' :: d.place := by simpa using not_mem_place named (c := ',') (by decide) (by decide)
  rw [printed]
  cases init : d.init with
  | none => exact ⟨topLevelPieces_of_absent single 0, by rw [depthChange_cons, depthChange_place named]; rfl⟩
  | some e =>
    have value := printable.init e init
    have front : topLevelPieces 0 (' ' :: (d.place ++ [' ', '=', ' '])) = [' ' :: (d.place ++ [' ', '=', ' '])] :=
      topLevelPieces_of_absent (by simpa using single) 0
    have level : depthChange (' ' :: (d.place ++ [' ', '=', ' '])) = 0 := by
      rw [depthChange_cons, depthChange_append, depthChange_place named]
      rfl
    have spelled : ' ' :: (d.place ++ ' ' :: '=' :: ' ' :: e) = ' ' :: (d.place ++ [' ', '=', ' ']) ++ e := by simp
    have one : topLevelPieces 0 e = [e] := topLevelPieces_of_inner fun before after whole => by
      rw [Int.zero_add]
      exact value.inner before after whole
    dsimp only
    rw [spelled, topLevelPieces_append front, depthChange_append, level, Int.add_zero, one, value.closed]
    exact ⟨rfl, rfl⟩

/-- A star or a name begins what is declared. -/
theorem goesOn (tail : Text) : GoesOn (' ' :: (d.printed ++ tail)) := by
  obtain ⟨rest, same, _⟩ := d.spelled
  rw [same, List.append_assoc, List.append_assoc]
  split
  · exact ⟨'*', _, rfl, by decide, by decide⟩
  · exact .of_isName printable.named _

/-- Neither the star nor the name of a declarator is a word of its type. -/
theorem not_typeWord {tail : Text} (stop : ∀ c ∈ tail.head?, isNameChar c = false) :
    nextTypeWord? (' ' :: (d.printed ++ tail)) = none := by
  obtain ⟨rest, same, apart⟩ := d.spelled
  have foreign : isPrimitive (leadingName (trimStart (' ' :: (d.printed ++ tail)))) = false := by
    rw [same, List.append_assoc, List.append_assoc, trimStart, List.dropWhile_cons_of_pos (by decide)]
    split
    · rfl
    · have behind : ∀ c ∈ (rest ++ tail).head?, isNameChar c = false := by
        cases rest with
        | nil => exact stop
        | cons c others => exact apart
      have start : (d.name ++ (rest ++ tail)).dropWhile isBlank = d.name ++ (rest ++ tail) := by
        obtain ⟨c, others, whole, solid⟩ := (bounded_isBlank (bounded_of_isName printable.named)).first
        rw [whole, List.cons_append, List.dropWhile_cons_of_neg (by simpa using solid)]
      rw [List.nil_append, start, leadingName_append printable.named behind, Bool.eq_false_iff, ne_eq,
        isPrimitive_iff printable.named]
      exact printable.not_type
  unfold nextTypeWord?
  dsimp only
  rw [foreign, Bool.false_and, if_neg (by decide)]

end Printable

end Declarator

/-- A declaration is read back as it was written, with and without a semicolon. -/
theorem declaration_read_back {T : Text} {ds : List Declarator} (type : IsTypeName T) (nonempty : ds ≠ [])
    (typed : ∀ d ∈ ds, d.typeName = T) (printable : ∀ d ∈ ds, d.Printable) :
    readDeclaration (printedDeclaration T ds) = .ok ds ∧ readDeclaration (printedDeclaration T ds ++ [';']) = .ok ds := by
  have some_text : ds.map (·.printed) ≠ [] := by simpa using nonempty
  have list : Bounded isMargin (commaSeparated (ds.map (·.printed))) :=
    bounded_intercalate some_text (List.forall_mem_map.mpr fun d member => (printable d member).solid) _
  have whole : Bounded isMargin (printedDeclaration T ds) := type.solid.join list [' ']
  have typeName : leadingType? (stripQualifiers (printedDeclaration T ds)) =
      some (T, ' ' :: commaSeparated (ds.map (·.printed))) := by
    obtain ⟨d, others, rfl⟩ := List.exists_cons_of_ne_nil nonempty
    have first := printable d List.mem_cons_self
    obtain ⟨tail, same, stop⟩ : ∃ tail, commaSeparated ((d :: others).map (·.printed)) = d.printed ++ tail ∧
        ∀ c ∈ tail.head?, isNameChar c = false := by
      cases others with
      | nil => exact ⟨[], by simp [commaSeparated], nofun⟩
      | cons next more =>
        refine ⟨',' :: ' ' :: commaSeparated ((next :: more).map (·.printed)), by simp [commaSeparated], ?_⟩
        rintro c ⟨⟩
        decide
    rw [printedDeclaration, same, type.stripQualifiers (first.goesOn tail).stop]
    exact type.leadingType? (first.goesOn tail) (first.not_typeWord stop)
  have pieces : List.Forall₂ (fun piece d => Declarator.read T piece = .ok d)
      (topLevelPieces 0 (' ' :: commaSeparated (ds.map (·.printed)))) ds := by
    rw [topLevelPieces_commaSeparated some_text (List.forall_mem_map.mpr fun d member => (printable d member).piece),
      List.map_map, List.forall₂_map_left_iff, List.forall₂_same]
    intro d member
    exact typed d member ▸ (printable d member).read
  have reads {line : Text} (statement : trimStatement line = printedDeclaration T ds) : readDeclaration line = .ok ds :=
    readDeclaration_eq_ok_iff.mpr ⟨T, _, statement ▸ typeName, pieces⟩
  exact ⟨reads (trimStatement_solid whole), reads (trimStatement_ended whole)⟩

/-- Two declarators of a type of two words. The initialiser has a comma in its brackets and an arrow. -/
theorem declaration_read_back_of_pair :
    ∃ ds : List Declarator, ds.length = 2 ∧ (∀ d ∈ ds, d.typeName = "unsigned long".toList) ∧
      printedDeclaration "unsigned long".toList ds = "unsigned long total = max(a, b->c < 2), *parts[12]".toList ∧
      readDeclaration (printedDeclaration "unsigned long".toList ds ++ [';']) = .ok ds := by
  have type : IsTypeName "unsigned long".toList := 
    @IsTypeName.words ["unsigned".toList, "long".toList] (by decide) (by decide)
  let total : Declarator :=
    { typeName := "unsigned long".toList, name := "total".toList, init := some "max(a, b->c < 2)".toList }
  let parts : Declarator :=
    { typeName := "unsigned long".toList, name := "parts".toList, pointer := true, arrayLength := some 12 }
  have first : total.Printable := ⟨by decide, by decide, nofun, by rintro e ⟨⟩; decide +kernel⟩
  have second : parts.Printable := ⟨by decide, by decide, by rintro n ⟨⟩; decide, nofun⟩
  have same : ∀ d ∈ [total, parts], d.typeName = "unsigned long".toList := by simp [total, parts]
  have printable : ∀ d ∈ [total, parts], d.Printable := by simp [first, second]
  exact ⟨[total, parts], rfl, same, by decide +kernel, (declaration_read_back type (by simp) same printable).2⟩

end MemoryTrace.Script
