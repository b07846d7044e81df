import MemoryTrace.Proofs.Script.DeclarationParts
import MemoryTrace.Proofs.Script.Layout

namespace MemoryTrace.Script

open Text

section Ends

/-- Blanks behind a line belong to neither side of an assignment. -/
theorem assignmentFrom?_append_blanks {blanks : Text} (blank : ∀ c ∈ blanks, isBlank c) (before text : Text) :
    assignmentFrom? before (text ++ blanks) = assignmentFrom? before text := by
  have no_sign : '=' ∉ blanks := fun member => absurd (blank '=' member) (by decide)
  have kept (text : Text) : trimStatement (text ++ blanks) = trimStatement text := by
    rw [trimStatement, trim_append_blanks blank, trimStatement]
  induction text generalizing before with
  | nil =>
    have scanned := assignmentFrom?_append no_sign before []
    rwa [List.append_nil] at scanned
  | cons c rest ih =>
    have head : (rest ++ blanks).head? ≠ some '=' ↔ rest.head? ≠ some '=' := by
      cases rest with
      | nil =>
        have none_first : blanks.head? ≠ some '=' := fun same => no_sign (List.mem_of_head? same)
        simp [none_first]
      | cons d others => rfl
    rw [List.cons_append, assignmentFrom?, assignmentFrom?, kept, ih]
    simp only [head]

theorem Declarator.read_append_blanks {blanks : Text} (blank : ∀ c ∈ blanks, isBlank c) (T piece : Text) :
    Declarator.read T (piece ++ blanks) = Declarator.read T piece := by
  rw [Declarator.read, Declarator.read, splitAssignment?, assignmentFrom?_append_blanks blank, splitAssignment?,
    trim_append_blanks blank]

end Ends

section Types

/-- Nothing follows but what may follow the name being declared. -/
def EndsName (tail : Text) : Prop := ∀ c ∈ (trimStart tail).head?, c ∈ nameEnds

section Continued

variable {tail : Text} (ends : EndsName tail)

include ends

theorem EndsName.stop : ∀ c ∈ tail.head?, isNameChar c = false := by
  intro c first
  obtain ⟨rest, rfl⟩ := List.head?_eq_some_iff.mp first
  by_cases blank : isBlank c
  · exact Bool.eq_false_iff.mpr fun letter => by rw [isBlank_of_isNameChar letter] at blank; contradiction
  · have mark : c ∈ nameEnds := ends c (by rw [trimStart_of_head (Bool.eq_false_iff.mpr blank)]; rfl)
    have marks : nameEnds.all (! isNameChar ·) := by decide
    simpa using List.all_eq_true.mp marks c mark

theorem leadingName_append_end (text : Text) : leadingName (text ++ tail) = leadingName text := by
  have stopped : tail.takeWhile isNameChar = [] := by
    cases tail with
    | nil => rfl
    | cons c rest => exact List.takeWhile_cons_of_neg (by simp [ends.stop c rfl])
  cases text with
  | nil =>
    cases tail with
    | nil => rfl
    | cons c rest =>
      show leadingName (c :: rest) = []
      rw [leadingName, stopped]
      exact ite_self _
  | cons c rest =>
    rw [List.cons_append, leadingName, leadingName, ← List.cons_append, List.takeWhile_append, stopped]
    congr 1
    split
    · rename_i whole
      rw [List.append_nil, (List.takeWhile_prefix isNameChar).eq_of_length whole]
    · rfl

theorem afterName_append_end (text : Text) : afterName (text ++ tail) = afterName text ++ tail := by
  rw [afterName, leadingName_append_end ends, List.drop_append_of_le_length (leadingName_isPrefix text).length_le]
  rfl

theorem nextTypeWord?_append_end (text : Text) :
    nextTypeWord? (text ++ tail) = (nextTypeWord? text).map fun next => (next.1, next.2 ++ tail) := by
  have no_name : leadingName (trimStart tail) = [] := by
    have still : EndsName (trimStart tail) := by rwa [EndsName, trimStart_trimStart]
    exact leadingName_append_end still []
  have ends_there (after : Text) : (trimStart (after ++ tail)).head?.any (fun c => !nameEnds.contains c) =
      (trimStart after).head?.any (fun c => !nameEnds.contains c) := by
    rw [trimStart_append]
    split
    · rename_i empty
      rw [empty]
      cases mark : trimStart tail with
      | nil => rfl
      | cons c rest => simp [ends c (by rw [mark]; rfl)]
    · rename_i nonempty
      rw [List.head?_append_of_ne_nil _ nonempty]
  unfold nextTypeWord?
  dsimp only
  rw [trimStart_append]
  split
  · rename_i empty
    rw [no_name, empty]
    rfl
  · rw [leadingName_append_end ends, afterName_append_end ends, ends_there]
    split <;> rfl

theorem joinTypeWords_append_end (typeName text : Text) : joinTypeWords typeName (text ++ tail) =
    ((joinTypeWords typeName text).1, (joinTypeWords typeName text).2 ++ tail) := by
  induction typeName, text using joinTypeWords.induct with
  | case1 typeName text word after next ih =>
    have longer : nextTypeWord? (text ++ tail) = some (word, after ++ tail) := by
      rw [nextTypeWord?_append_end ends, next]
      rfl
    rw [joinTypeWords_of_some longer, joinTypeWords_of_some next, ih]
  | case2 typeName text last =>
    have still : nextTypeWord? (text ++ tail) = none := by
      rw [nextTypeWord?_append_end ends, last]
      rfl
    rw [joinTypeWords_of_none still, joinTypeWords_of_none last]

/-- A type is read alike whatever follows the declared name. -/
theorem leadingType?_append_end (text : Text) :
    leadingType? (text ++ tail) = (leadingType? text).map fun parts => (parts.1, parts.2 ++ tail) := by
  rw [leadingType?, leadingType?, leadingName_append_end ends, afterName_append_end ends]
  split
  · rfl
  · split
    · rw [joinTypeWords_append_end ends]
      rfl
    · rfl

end Continued

variable {T text rest : Text}

/-- The next word of a type is a primitive word that the text goes on with. -/
theorem nextTypeWord?_eq_some {word after : Text} (next : nextTypeWord? text = some (word, after)) :
    IsPrimitiveWord word ∧ trimStart text = word ++ after := by
  unfold nextTypeWord? at next
  dsimp only at next
  split at next
  · rename_i both
    obtain ⟨rfl, rfl⟩ := Prod.mk.inj (Option.some.inj next)
    exact ⟨(isPrimitive_leadingName (Bool.and_eq_true_iff.mp both).1).2, (leadingName_append_afterName _).symm⟩
  · contradiction

/-- Primitive words are joined to a type, with single blanks. -/
theorem joinTypeWords_fst (typeName text : Text) : ∃ list : List Text, (∀ word ∈ list, IsPrimitiveWord word) ∧
    (joinTypeWords typeName text).1 = typeName ++ list.flatMap (' ' :: ·) := by
  induction typeName, text using joinTypeWords.induct with
  | case1 typeName text word after next ih =>
    obtain ⟨list, primitive, joined⟩ := ih
    refine ⟨word :: list, List.forall_mem_cons.mpr ⟨(nextTypeWord?_eq_some next).1, primitive⟩, ?_⟩
    rw [joinTypeWords_of_some next, joined, List.flatMap_cons, List.append_assoc]
  | case2 typeName text last => exact ⟨[], nofun, by rw [joinTypeWords_of_none last]; simp⟩

/-- What is read as a type is one, unless it is a qualifier. -/
theorem isTypeName_of_leadingType? (found : leadingType? text = some (T, rest))
    (unqualified : ¬ qualifiers.any (·.toList = T)) : IsTypeName T := by
  rw [leadingType?] at found
  split at found
  · contradiction
  · rename_i nonempty
    split at found
    · rename_i primitive
      obtain ⟨list, others, joined⟩ := joinTypeWords_fst (leadingName text) (afterName text)
      rw [Option.some.inj found, ← intercalate_words] at joined
      dsimp only at joined
      exact joined ▸ .words (by simp) (List.forall_mem_cons.mpr ⟨(isPrimitive_leadingName primitive).2, others⟩)
    · obtain ⟨rfl, rfl⟩ := Prod.mk.inj (Option.some.inj found)
      exact .name (isName_leadingName (by simpa using nonempty)) unqualified

/-- Where the words joined are those in front, they are all that is read. -/
theorem eq_of_joinTypeWords {typeName more after : Text}
    (joined : joinTypeWords typeName (more ++ after) = (typeName ++ more, rest)) : rest = after := by
  generalize whole : more ++ after = text at joined
  induction typeName, text using joinTypeWords.induct generalizing more with
  | case1 typeName text word behind next ih =>
    rw [joinTypeWords_of_some next] at joined
    obtain ⟨primitive, spelled⟩ := nextTypeWord?_eq_some next
    obtain ⟨list, _, longer⟩ := joinTypeWords_fst (typeName ++ ' ' :: word) behind
    rw [joined, List.append_assoc] at longer
    obtain rfl := List.append_cancel_left longer
    have start : trimStart text = word ++ (list.flatMap (' ' :: ·) ++ after) := by
      obtain ⟨c, others, rfl, visible⟩ := (bounded_isBlank (bounded_of_isName primitive.spelled.1)).first
      rw [← whole, List.append_assoc, List.cons_append, trimStart, List.dropWhile_cons_of_pos (by decide)]
      exact trimStart_of_head visible
    exact ih (List.append_cancel_left (start.symm.trans spelled)) (by rw [joined, List.append_assoc])
  | case2 typeName text last =>
    rw [joinTypeWords_of_none last] at joined
    obtain ⟨same, rfl⟩ := Prod.mk.inj joined
    obtain rfl := List.self_eq_append_right.mp same
    exact whole.symm

theorem IsTypeName.eq_of_leadingType? {after : Text} (type : IsTypeName T)
    (stop : ∀ c ∈ after.head?, isNameChar c = false) (found : Script.leadingType? (T ++ after) = some (T, rest)) :
    rest = after := by
  obtain ⟨first, others, rfl, named, _, first_primitive, primitive⟩ := type.spelled
  rw [List.append_assoc, leadingType?_of_isName named (stop_words stop)] at found
  have joined := Option.some.inj found
  split at joined
  · exact eq_of_joinTypeWords joined
  · rename_i foreign
    obtain rfl := first_primitive.resolve_right fun primitive => foreign ((isPrimitive_iff named).mpr primitive)
    exact (Prod.mk.inj joined).2.symm

end Types

section Items

/-- A text between two commas of a list. Its parentheses match, and its square brackets. -/
structure IsListItem (d : Text) : Prop where
  single : ',' ∉ d
  unended : ';' ∉ d
  round : d.count '(' = d.count ')'
  square : d.count '[' = d.count ']'

/-- Behind the type, and with nothing else there, this is read as one declarator. -/
structure ReadsAlone (T d : Text) (D : Declarator) : Prop where
  read : readDeclaration (T ++ ' ' :: d) = .ok [D]
  typed : D.typeName = T

/-- What is left of the depth comes from angle brackets, since all others match. -/
theorem IsListItem.depthChange_iff {d : Text} (item : IsListItem d) :
    depthChange d = 0 ↔ d.count '<' = d.count '>' := by
  rw [depthChange_eq_count, item.round, item.square]
  omega

/-- No character of a name follows the type. -/
theorem stop_trimEnd (text : Text) : ∀ c ∈ (trimEnd (' ' :: text)).head?, isNameChar c = false := by
  obtain ⟨blanks, whole, _⟩ := exists_blanks (' ' :: text)
  intro c first
  obtain ⟨rest, same⟩ := List.head?_eq_some_iff.mp first
  rw [same, List.cons_append] at whole
  rw [← (List.cons.inj whole).1]
  decide

/-- A declarator that is read alone is read from all that follows the type. -/
theorem ReadsAlone.parts {T d : Text} {D : Declarator} (alone : ReadsAlone T d D) (item : IsListItem d)
    (unqualified : ¬ qualifiers.any (·.toList = T)) :
    IsTypeName T ∧ leadingType? (T ++ trimEnd (' ' :: d)) = some (T, trimEnd (' ' :: d)) ∧
      Declarator.read T (' ' :: d) = .ok D := by
  obtain ⟨T', rest, found, each⟩ := readDeclaration_eq_ok_iff.mp alone.read
  obtain ⟨piece, others, read, last, pieces⟩ := List.forall₂_cons_right_iff.mp each
  obtain rfl : T' = T := (Declarator.of_read read).1.symm.trans alone.typed
  have type := isTypeName_of_leadingType? found unqualified
  rw [trimStatement_append type.solid (by simpa using item.unended), type.stripQualifiers (stop_trimEnd d)] at found
  obtain rfl := type.eq_of_leadingType? (stop_trimEnd d) found
  have single : ',' ∉ trimEnd (' ' :: d) := fun member => item.single (by simpa using mem_of_mem_trimEnd member)
  rw [topLevelPieces_of_absent single] at pieces
  obtain ⟨blanks, whole, blank⟩ := exists_blanks (' ' :: d)
  refine ⟨type, found, ?_⟩
  rw [whole, Declarator.read_append_blanks blank, (List.cons.inj pieces).1, read]

section Lists

variable {ds : List Text}

theorem not_mem_commaSeparated {c : Char} (other : c ∉ [',', ' ']) (absent : ∀ d ∈ ds, c ∉ d) :
    c ∉ commaSeparated ds := by
  induction ds with
  | nil => exact List.not_mem_nil
  | cons first rest ih =>
    rw [List.forall_mem_cons] at absent
    cases rest with
    | nil => simpa [commaSeparated] using absent.1
    | cons next others =>
      rw [commaSeparated, List.intercalate_cons_cons, List.mem_append, List.mem_append, not_or, not_or]
      exact ⟨⟨absent.1, other⟩, ih absent.2⟩

/-- The end of a list is the end of its last declarator. -/
theorem trimEnd_commaSeparated_cons (first next : Text) (rest : List Text) :
    trimEnd (' ' :: commaSeparated (first :: next :: rest)) =
      (' ' :: first) ++ ',' :: trimEnd (' ' :: commaSeparated (next :: rest)) := by
  rw [commaSeparated_cons, trimEnd, dropEndWhile_append_cons (by decide)]
  rfl

/-- Behind the first declarator, a list goes on with a comma or not at all. -/
theorem trimEnd_commaSeparated_first (first : Text) (rest : List Text) : ∃ tail, EndsName tail ∧
    trimEnd (' ' :: commaSeparated (first :: rest)) = trimEnd (' ' :: first) ++ tail := by
  cases rest with
  | nil => exact ⟨[], nofun, by simp [commaSeparated]⟩
  | cons next others =>
    obtain ⟨blanks, whole, blank⟩ := exists_blanks (' ' :: first)
    refine ⟨blanks ++ ',' :: trimEnd (' ' :: commaSeparated (next :: others)), fun c head => ?_, ?_⟩
    · have none_left : trimStart blanks = [] := List.dropWhile_eq_nil_iff.mpr blank
      rw [trimStart_append, if_pos none_left, trimStart_of_head (by decide)] at head
      obtain rfl := Option.some.inj head
      decide
    · rw [trimEnd_commaSeparated_cons, ← List.append_assoc, ← whole]

/-- No more pieces are found than there are declarators, since no other comma parts them. -/
theorem length_pieces_le (nonempty : ds ≠ []) (single : ∀ d ∈ ds, ',' ∉ d) (depth : Int) :
    (topLevelPieces depth (trimEnd (' ' :: commaSeparated ds))).length ≤ ds.length := by
  induction ds generalizing depth with
  | nil => contradiction
  | cons first rest ih =>
    rw [List.forall_mem_cons] at single
    cases rest with
    | nil =>
      have one : ',' ∉ trimEnd (' ' :: first) := fun member => single.1 (by simpa using mem_of_mem_trimEnd member)
      simp [commaSeparated, topLevelPieces_of_absent one]
    | cons next others =>
      have one := topLevelPieces_of_absent (by simpa using single.1 : ',' ∉ ' ' :: first) depth
      rw [trimEnd_commaSeparated_cons]
      by_cases closed : depth + depthChange (' ' :: first) = 0
      · rw [topLevelPieces_comma one closed]
        exact Nat.succ_le_succ (ih (by simp) single.2 0)
      · rw [length_topLevelPieces_comma one closed]
        exact Nat.le_succ_of_le (ih (by simp) single.2 _)

/-- Declarators are read in a list as they are read alone if each but the last closes what it opens. A comma that
parts nothing leaves a piece too few. -/
theorem read_pieces_iff {T : Text} {Ds : List Declarator} (nonempty : ds ≠ []) (single : ∀ d ∈ ds, ',' ∉ d)
    (each : List.Forall₂ (fun d D => Declarator.read T (' ' :: d) = .ok D) ds Ds) :
    List.Forall₂ (fun piece D => Declarator.read T piece = .ok D)
        (topLevelPieces 0 (trimEnd (' ' :: commaSeparated ds))) Ds ↔
      ∀ d ∈ ds.dropLast, depthChange d = 0 := by
  induction each with
  | nil => contradiction
  | @cons first D rest Ds read later ih =>
    rw [List.forall_mem_cons] at single
    cases rest with
    | nil =>
      obtain rfl := List.forall₂_nil_left_iff.mp later
      have one : ',' ∉ trimEnd (' ' :: first) := fun member => single.1 (by simpa using mem_of_mem_trimEnd member)
      obtain ⟨blanks, whole, blank⟩ := exists_blanks (' ' :: first)
      rw [whole, Declarator.read_append_blanks blank] at read
      simp [commaSeparated, topLevelPieces_of_absent one, read]
    | cons next others =>
      have one := topLevelPieces_of_absent (by simpa using single.1 : ',' ∉ ' ' :: first) 0
      rw [trimEnd_commaSeparated_cons, List.dropLast_cons_of_ne_nil (List.cons_ne_nil next others), List.forall_mem_cons]
      by_cases closed : depthChange first = 0
      · rw [topLevelPieces_comma one (by simpa [nesting] using closed), List.forall₂_cons, ih (by simp) single.2]
        exact and_congr_left' (iff_of_true read closed)
      · refine iff_of_false (fun pieces => ?_) fun both => closed both.1
        have same := pieces.length_eq
        have fewer := length_pieces_le (List.cons_ne_nil next others) single.2 (0 + depthChange (' ' :: first))
        rw [length_topLevelPieces_comma one (by simpa [nesting] using closed), List.length_cons, ← later.length_eq] at same
        omega

end Lists

end Items

/-- Declarators with balanced parentheses and square brackets, each of which is read alone, are read in a list exactly
if as many angles open as close in each but the last. The angles of arrows and comparisons count. -/
theorem comma_list_declares_each {T : Text} {ds : List Text} {Ds : List Declarator}
    (unqualified : ¬ qualifiers.any (·.toList = T)) (nonempty : ds ≠ []) (items : ∀ d ∈ ds, IsListItem d)
    (alone : List.Forall₂ (ReadsAlone T) ds Ds) :
    readDeclaration (T ++ ' ' :: commaSeparated ds) = .ok Ds ↔ ∀ d ∈ ds.dropLast, d.count '<' = d.count '>' := by
  have single : ∀ d ∈ ds, ',' ∉ d := fun d member => (items d member).single
  have each : List.Forall₂ (fun d D => Declarator.read T (' ' :: d) = .ok D) ds Ds :=
    ((List.forall₂_and_left ..).mpr ⟨items, alone⟩).imp fun d D both => (both.2.parts both.1 unqualified).2.2
  have whole : leadingType? (stripQualifiers (trimStatement (T ++ ' ' :: commaSeparated ds))) =
      some (T, trimEnd (' ' :: commaSeparated ds)) := by
    have unended : ';' ∉ ' ' :: commaSeparated ds := by
      simpa using not_mem_commaSeparated (by decide) fun d member => (items d member).unended
    obtain ⟨d, others, rfl⟩ := List.exists_cons_of_ne_nil nonempty
    obtain ⟨D, _, first, _, _⟩ := List.forall₂_cons_left_iff.mp alone
    obtain ⟨type, found, _⟩ := first.parts (items d List.mem_cons_self) unqualified
    obtain ⟨tail, ends, longer⟩ := trimEnd_commaSeparated_first d others
    rw [trimStatement_append type.solid unended, type.stripQualifiers (stop_trimEnd _), longer, ← List.append_assoc,
      leadingType?_append_end ends, found]
    rfl
  have closed : (∀ d ∈ ds.dropLast, depthChange d = 0) ↔ ∀ d ∈ ds.dropLast, d.count '<' = d.count '>' :=
    forall₂_congr fun d member => (items d (List.mem_of_mem_dropLast member)).depthChange_iff
  rw [readDeclaration_eq_ok_iff, ← closed, ← read_pieces_iff nonempty single each]
  constructor
  · rintro ⟨T', rest, found, pieces⟩
    obtain ⟨rfl, rfl⟩ := Prod.mk.inj (Option.some.inj (found.symm.trans whole))
    exact pieces
  · intro pieces
    exact ⟨T, _, whole, pieces⟩

/-- Three declarators, the first with angle brackets that match, the last with one that does not. -/
theorem comma_list_declares_each_of_three :
    ∃ (ds : List Text) (Ds : List Declarator), commaSeparated ds = "a = get<int>(1), *b, c = a < 2".toList ∧
      List.Forall₂ (ReadsAlone "int".toList) ds Ds ∧ Ds.map (·.name) = ["a", "b", "c"].map (·.toList) ∧
      readDeclaration ("int".toList ++ ' ' :: commaSeparated ds) = .ok Ds := by
  obtain ⟨ds, Ds, list, alone, names, nonempty, items, closed⟩ : ∃ (ds : List Text) (Ds : List Declarator),
      commaSeparated ds = "a = get<int>(1), *b, c = a < 2".toList ∧ List.Forall₂ (ReadsAlone "int".toList) ds Ds ∧
      Ds.map (·.name) = ["a", "b", "c"].map (·.toList) ∧ ds ≠ [] ∧ (∀ d ∈ ds, IsListItem d) ∧
      ∀ d ∈ ds.dropLast, d.count '<' = d.count '>' := by
    refine ⟨["a = get<int>(1)".toList, "*b".toList, "c = a < 2".toList],
      [{ typeName := "int".toList, name := "a".toList, init := some "get<int>(1)".toList },
        { typeName := "int".toList, name := "b".toList, pointer := true },
        { typeName := "int".toList, name := "c".toList, init := some "a < 2".toList }],
      by decide, ?_, rfl, by simp, ?_, by decide⟩
    · exact .cons ⟨by decide +kernel, rfl⟩ (.cons ⟨by decide +kernel, rfl⟩ (.cons ⟨by decide +kernel, rfl⟩ .nil))
    · simp only [List.forall_mem_cons]
      exact ⟨⟨by decide, by decide, rfl, rfl⟩, ⟨by decide, by decide, rfl, rfl⟩, ⟨by decide, by decide, rfl, rfl⟩, nofun⟩
  exact ⟨ds, Ds, list, alone, names, (comma_list_declares_each (by decide) nonempty items alone).mpr closed⟩

/-- The arrow in front of a comma closes an angle that nothing opened, so the next declarator is part of the value. -/
theorem comma_behind_arrow_parts_nothing :
    ¬ ∀ (T : Text) (ds : List Text) (Ds : List Declarator), ds ≠ [] → (∀ d ∈ ds, IsListItem d) →
      List.Forall₂ (ReadsAlone T) ds Ds → readDeclaration (T ++ ' ' :: commaSeparated ds) = .ok Ds := by
  intro always
  have swallowed : readDeclaration "int a = p->x, b".toList =
      .ok [{ typeName := "int".toList, name := "a".toList, init := some "p->x, b".toList }] := by decide +kernel
  have parted := always "int".toList ["a = p->x".toList, "b".toList]
    [{ typeName := "int".toList, name := "a".toList, init := some "p->x".toList },
      { typeName := "int".toList, name := "b".toList }]
    (by simp)
    (by
      simp only [List.forall_mem_cons]
      exact ⟨⟨by decide, by decide, rfl, rfl⟩, ⟨by decide, by decide, rfl, rfl⟩, nofun⟩)
    (.cons ⟨by decide +kernel, rfl⟩ (.cons ⟨by decide +kernel, rfl⟩ .nil))
  have same := congrArg (fun read => read.toOption.map List.length) (swallowed.symm.trans parted)
  exact absurd same (by decide)

end MemoryTrace.Script
