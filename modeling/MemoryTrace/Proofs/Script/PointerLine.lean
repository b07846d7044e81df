import MemoryTrace.Proofs.Script.ClassText
import MemoryTrace.Proofs.Script.DeclarationParts

namespace MemoryTrace

open Text

namespace Script

/-- A raw pointer with its type: `T* p`. -/
def rawDeclared (T p : Text) : Text := T ++ '*' :: ' ' :: p

/-- A type that is a single name. Of the keywords only the primitive types are types. -/
structure IsPointeeName (T : Text) : Prop where
  named : isName T
  unreserved : reservedWords.any (·.toList = T) → IsPrimitiveWord T

instance (T : Text) : Decidable (IsPointeeName T) :=
  decidable_of_iff (isName T ∧ (reservedWords.any (·.toList = T) → IsPrimitiveWord T))
    ⟨fun ⟨named, unreserved⟩ => ⟨named, unreserved⟩, fun ⟨named, unreserved⟩ => ⟨named, unreserved⟩⟩

/-- The text of a single initialiser, whatever it means. -/
structure IsInitialiser (e : Text) : Prop where
  nonempty : e ≠ []
  trimmed : e.trim = e
  single : ',' ∉ e
  ended : ';' ∉ e

instance (e : Text) : Decidable (IsInitialiser e) :=
  decidable_of_iff (e ≠ [] ∧ e.trim = e ∧ ',' ∉ e ∧ ';' ∉ e)
    ⟨fun ⟨nonempty, trimmed, single, ended⟩ => ⟨nonempty, trimmed, single, ended⟩,
      fun ⟨nonempty, trimmed, single, ended⟩ => ⟨nonempty, trimmed, single, ended⟩⟩

/-- The declarator that is read from `T* p`. -/
def rawDeclarator (T p : Text) (init : Option Text) : Declarator := { typeName := T, name := p, pointer := true, init }

theorem IsInitialiser.solid {e : Text} (value : IsInitialiser e) : Bounded isMargin e :=
  solid_of_trim value.nonempty value.trimmed value.ended

/-- A pointee is no keyword, unless it is a primitive type. -/
theorem IsPointeeName.not_of_mem {T : Text} (type : IsPointeeName T) {words : List String}
    (reserved : ∀ word ∈ words, word ∈ reservedWords ∧ primitiveSizes.all (·.1 ≠ word)) :
    ¬ words.any (·.toList = T) := by
  intro found
  obtain ⟨word, listed, same⟩ := List.any_eq_true.mp found
  obtain ⟨known, foreign⟩ := reserved word listed
  obtain ⟨entry, member, primitive⟩ :=
    List.any_eq_true.mp (type.unreserved (List.any_eq_true.mpr ⟨word, known, same⟩))
  have spelled : entry.1.toList = word.toList := (of_decide_eq_true primitive).trans (of_decide_eq_true same).symm
  exact of_decide_eq_true (List.all_eq_true.mp foreign entry member) (String.toList_inj.mp spelled)

theorem IsPointeeName.not_auto {T : Text} (type : IsPointeeName T) : T ≠ "auto".toList := by
  rintro rfl
  exact absurd (type.unreserved (by decide)) (by decide)

section Star

variable {p : Text} (named : isName p)

include named

/-- A star in front of a name makes a pointer of it. -/
theorem ofPlace_star (T : Text) (init : Option Text) :
    Declarator.ofPlace T ('*' :: ' ' :: p) init = .ok (rawDeclarator T p init) := by
  have stars : ∀ c ∈ ['*', ' '], c = '*' ∨ c = ' ' := by simp
  have ended : ∀ c ∈ ([] : Text).head?, isNameChar c = false := nofun
  have read := Declarator.ofPlace_run stars named ended rfl T init
  rwa [List.append_nil] at read

theorem star_solid : Bounded isMargin ('*' :: ' ' :: p) := by
  have star : Bounded isMargin ['*'] := ⟨⟨'*', [], rfl, by decide⟩, ⟨[], '*', rfl, by decide⟩⟩
  exact star.join (bounded_of_isName named) [' ']

end Star

section Lines

variable {T p e : Text} (type : IsPointeeName T) (named : isName p)

include type in
theorem ordinary_rawDeclared (p rest : Text) : Ordinary (rawDeclared T p ++ rest ++ [';']) := by
  have spelled : rawDeclared T p ++ rest ++ [';'] = (T ++ ['*']) ++ ' ' :: ((p ++ rest) ++ [';']) := by
    simp [rawDeclared]
  rw [spelled]
  refine .of_first (by simp) (fun c member => ?_) (fun known => ?_) ?_ _
  · rcases List.mem_append.mp member with inside | star
    · exact solid_of_isName type.named c inside
    · rw [List.mem_singleton.mp star]
      decide
  · obtain ⟨keyword, listed, same⟩ := List.any_eq_true.mp known
    have unstarred : leadingKeywords.all fun keyword => decide ('*' ∉ keyword.toList) := by decide
    have absent := of_decide_eq_true (List.all_eq_true.mp unstarred keyword listed)
    rw [of_decide_eq_true same] at absent
    exact absent (List.mem_append_right _ List.mem_cons_self)
  · have bracketless : '[' ∉ T ++ ['*'] := by
      have inside : '[' ∉ T := not_mem_of_isName type.named (by decide)
      simp [inside]
    exact not_startsWith_of_absent (c := '[') (by decide) bracketless

include type in
/-- A type ends in front of a star. -/
theorem leadingType?_star (rest : Text) : leadingType? (T ++ '*' :: rest) = some (T, '*' :: rest) := by
  refine leadingType?_append type.named (by rintro c ⟨⟩; decide) ?_
  simp [nextTypeWord?, trimStart, leadingName, isPrimitive, primitiveSize?, words, fields, isBlank, inRanges,
    blankRanges, isNameChar]

include type in
/-- With a single declarator behind it, a type and a star are read as one pointer. -/
theorem readDeclaration_star {line rest : Text} (statement : trimStatement line = T ++ '*' :: rest)
    (single : ',' ∉ rest) {d : Declarator} (piece : Declarator.read T ('*' :: rest) = .ok d) :
    readDeclaration line = .ok [d] := by
  have unqualified : ¬ qualifiers.any (·.toList = T) := type.not_of_mem (by decide)
  have alone : ',' ∉ '*' :: rest := by simpa using single
  rw [readDeclaration, statement, stripQualifiers_of_name type.named unqualified (by rintro c ⟨⟩; decide),
    leadingType?_star type]
  dsimp only
  rw [topLevelPieces_of_absent alone, List.mapM_cons, piece]
  rfl

include type named in
theorem rawDeclared_solid : Bounded isMargin (rawDeclared T p) :=
  (bounded_of_isName type.named).join (bounded_of_isName named) ['*', ' ']

include type named in
theorem sign_not_mem_rawDeclared : '=' ∉ rawDeclared T p := by
  have outside_type : '=' ∉ T := not_mem_of_isName type.named (by decide)
  have outside : '=' ∉ p := not_mem_of_isName named (by decide)
  simp [rawDeclared, outside_type, outside]

/-- A declaration names a smart pointer where its type does or the declared name. -/
theorem mentionsSmartPointer_rawDeclared (T p : Text) :
    mentionsSmartPointer (rawDeclared T p) = (mentionsSmartPointer T || mentionsSmartPointer p) := by
  rw [rawDeclared, mentionsSmartPointer_append_cons (by decide), mentionsSmartPointer_cons (by decide)]

include type named in
/-- A raw pointer is read as it is written. -/
theorem readDeclaration_rawDeclared : readDeclaration (rawDeclared T p ++ [';']) = .ok [rawDeclarator T p none] := by
  have single : ',' ∉ ' ' :: p := by simpa using not_mem_of_isName named (c := ',') (by decide)
  have no_sign : '=' ∉ '*' :: ' ' :: p := by simpa using not_mem_of_isName named (c := '=') (by decide)
  refine readDeclaration_star type (trimStatement_ended (rawDeclared_solid type named)) single ?_
  rw [Declarator.read, splitAssignment?_of_absent no_sign]
  dsimp only
  rw [trim_solid (star_solid named), ofPlace_star named]

include type named in
theorem readDeclaration_rawAssigned (value : IsInitialiser e) :
    readDeclaration (assigned (rawDeclared T p) e) = .ok [rawDeclarator T p (some e)] := by
  have whole : Bounded isMargin (rawDeclared T p ++ ([' ', '=', ' '] ++ e)) :=
    (rawDeclared_solid type named).join value.solid _
  have statement : trimStatement (assigned (rawDeclared T p) e) = T ++ '*' :: (' ' :: p ++ ' ' :: '=' :: ' ' :: e) := by
    simpa [assigned, rawDeclared] using trimStatement_ended whole
  have single : ',' ∉ ' ' :: p ++ ' ' :: '=' :: ' ' :: e := by
    have outside : ',' ∉ p := not_mem_of_isName named (by decide)
    simp [outside, value.single]
  have no_sign : '=' ∉ '*' :: ' ' :: p := by simpa using not_mem_of_isName named (c := '=') (by decide)
  refine readDeclaration_star type statement single ?_
  have split := splitAssignment?_spaced no_sign e
  rw [trim_append_blank (bounded_isBlank (star_solid named)) (by decide), trimStatement_of_absent value.ended,
    value.trimmed] at split
  have piece : '*' :: (' ' :: p ++ ' ' :: '=' :: ' ' :: e) = '*' :: ' ' :: p ++ ' ' :: '=' :: ' ' :: e := rfl
  rw [piece, Declarator.read, split]
  exact ofPlace_star named T (some e)

end Lines

end Script

end MemoryTrace
