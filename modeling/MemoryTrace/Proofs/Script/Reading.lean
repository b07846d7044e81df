import MemoryTrace.Proofs.Text.Scanning
import MemoryTrace.Script.CodeLine
import MemoryTrace.Script.Declaration

namespace MemoryTrace

open Text

namespace Script

/-- The code points of letters. -/
theorem isAlpha_range {c : Char} (letter : c.isAlpha) :
    65 ≤ c.toNat ∧ c.toNat ≤ 90 ∨ 97 ≤ c.toNat ∧ c.toNat ≤ 122 := by
  rcases Bool.or_eq_true_iff.mp letter with upper | lower
  · obtain ⟨low, high⟩ := of_decide_eq_true upper
    exact .inl ⟨low, high⟩
  · obtain ⟨low, high⟩ := Bool.and_eq_true_iff.mp lower
    exact .inr ⟨of_decide_eq_true low, of_decide_eq_true high⟩

/-- The code points of decimal digits. -/
theorem isDigit_range {c : Char} (digit : c.isDigit) : 48 ≤ c.toNat ∧ c.toNat ≤ 57 := by
  obtain ⟨low, high⟩ := Bool.and_eq_true_iff.mp digit
  exact ⟨of_decide_eq_true low, of_decide_eq_true high⟩

theorem isBlank_of_isNameChar {c : Char} (named : isNameChar c) : isBlank c = false := by
  have code : 48 ≤ c.toNat ∧ c.toNat ≤ 122 := by
    simp only [isNameChar, Char.isAlphanum, Bool.or_eq_true, decide_eq_true_eq] at named
    rcases named with (letter | digit) | rfl
    · have := isAlpha_range letter
      omega
    · have := isDigit_range digit
      omega
    · decide
  simp only [isBlank, inRanges, blankRanges, List.any_cons, List.any_nil, Bool.or_false,
    Bool.or_eq_false_iff, Bool.and_eq_false_iff, decide_eq_false_iff_not]
  omega

theorem ne_of_isNameChar {c d : Char} (named : isNameChar c) (mark : isNameChar d = false) :
    c ≠ d := by
  rintro rfl
  rw [named] at mark
  contradiction

theorem isNameChar_of_isNameStart {c : Char} (start : isNameStart c) : isNameChar c := by
  simp only [isNameStart, isNameChar, Char.isAlphanum, Bool.or_eq_true] at start ⊢
  exact start.imp_left .inl

theorem not_isDigit_of_isNameStart {c : Char} (start : isNameStart c) : c.isDigit = false := by
  refine Bool.eq_false_iff.mpr fun digit => ?_
  have code := isDigit_range digit
  simp only [isNameStart, Bool.or_eq_true, decide_eq_true_eq] at start
  rcases start with letter | rfl
  · have := isAlpha_range letter
    omega
  · contradiction

section Names

variable {name : Text} (named : isName name)

include named

/-- A name has a first character and consists of characters of names. -/
theorem isName_cons : ∃ c rest, name = c :: rest ∧ isNameStart c ∧ ∀ d ∈ name, isNameChar d := by
  cases name with
  | nil => contradiction
  | cons c rest =>
    obtain ⟨start, all⟩ := Bool.and_eq_true_iff.mp named
    refine ⟨c, rest, rfl, start, fun d member => ?_⟩
    rcases List.mem_cons.mp member with rfl | later
    · exact isNameChar_of_isNameStart start
    · exact List.all_eq_true.mp all d later

theorem ne_nil_of_isName : name ≠ [] := by
  rintro rfl
  contradiction

theorem isNameChar_of_mem {c : Char} (member : c ∈ name) : isNameChar c := by
  obtain ⟨_, _, _, _, all⟩ := isName_cons named
  exact all c member

/-- What no name character is does not stand in a name. -/
theorem not_mem_of_isName {c : Char} (mark : isNameChar c = false) : c ∉ name := fun member =>
  ne_of_isNameChar (isNameChar_of_mem named member) mark rfl

/-- A name is read up to where no character of a name follows. -/
theorem leadingName_append {rest : Text} (stop : ∀ c ∈ rest.head?, isNameChar c = false) :
    leadingName (name ++ rest) = name := by
  obtain ⟨c, others, rfl, start, all⟩ := isName_cons named
  have stopped : rest.takeWhile isNameChar = [] := by
    cases rest with
    | nil => rfl
    | cons d _ => simp [stop d rfl]
  rw [List.cons_append, leadingName, not_isDigit_of_isNameStart start, ← List.cons_append]
  simp only [Bool.false_eq_true, if_false]
  rw [List.takeWhile_append_of_pos all, stopped, List.append_nil]

theorem afterName_append {rest : Text} (stop : ∀ c ∈ rest.head?, isNameChar c = false) :
    afterName (name ++ rest) = rest := by
  rw [afterName, leadingName_append named stop, List.drop_left]

theorem leadingName_self : leadingName name = name := by
  have whole : leadingName (name ++ []) = name := leadingName_append named nofun
  rwa [List.append_nil] at whole

end Names

/-- A name that a text begins with is a name, if there is one at all. -/
theorem isName_leadingName {text : Text} (nonempty : leadingName text ≠ []) : isName (leadingName text) := by
  cases text with
  | nil => contradiction
  | cons c rest =>
    rw [leadingName] at nonempty ⊢
    split at nonempty
    · contradiction
    · rename_i letter
      rw [if_neg letter, List.takeWhile_cons] at *
      split at nonempty
      · rename_i named
        rw [if_pos named, isName, Bool.and_eq_true, List.all_eq_true]
        refine ⟨?_, fun d member => List.mem_takeWhile_imp member⟩
        simp only [isNameChar, isNameStart, Char.isAlphanum, Bool.or_eq_true] at named ⊢
        exact named.imp_left fun either => either.resolve_right letter
      · contradiction

/-- A text that starts with a word has it as a prefix. -/
theorem startsWith_iff {word : String} {text : Text} :
    text.startsWith word ↔ word.toList <+: text :=
  List.isPrefixOf_iff_prefix

theorem mentions_of_startsWith {word : String} {text : Text} (starts : text.startsWith word) :
    text.mentions word :=
  mentions_iff.mpr (startsWith_iff.mp starts).isInfix

section Absent

variable {word : String} {text : Text} {c : Char} (there : c ∈ word.toList) (absent : c ∉ text)

include there absent

/-- A text starts with no word that has a character which the text has not. -/
theorem not_startsWith_of_absent : text.startsWith word = false := by
  refine Bool.eq_false_iff.mpr fun starts => ?_
  exact absent ((startsWith_iff.mp starts).subset there)

theorem afterStart?_of_absent : text.afterStart? word = none := by
  cases found : text.afterStart? word with
  | none => rfl
  | some after =>
    exact absurd (eq_append_of_isPrefixOf? found ▸ List.mem_append_left after there) absent

theorem beforeEnd?_of_absent : text.beforeEnd? word = none := by
  cases found : text.beforeEnd? word with
  | none => rfl
  | some before =>
    obtain ⟨reversed, starts, _⟩ := Option.map_eq_some_iff.mp found
    have whole := eq_append_of_isPrefixOf? starts
    have member : c ∈ text.reverse :=
      whole ▸ List.mem_append_left reversed (List.mem_reverse.mpr there)
    exact absurd (List.mem_reverse.mp member) absent

theorem around?_of_absent : text.around? word = none := by
  cases found : text.around? word with
  | none => rfl
  | some sides =>
    have whole : text = sides.1 ++ word.toList ++ sides.2 := eq_append_of_around? found
    exact absurd (whole ▸ List.mem_append_left _ (List.mem_append_right _ there)) absent

theorem not_mentions_of_absent : text.mentions word = false := by
  rw [mentions, around?_of_absent there absent]
  rfl

end Absent

/-- What trimming a statement may take off its ends. -/
def isMargin (c : Char) : Bool := isBlank c || c = ';'

theorem isBlank_of_not_isMargin (c : Char) (solid : isMargin c = false) : isBlank c = false :=
  (Bool.or_eq_false_iff.mp solid).1

/-- A name begins and ends with characters that trimming leaves. -/
theorem bounded_of_isName {name : Text} (named : isName name) : Bounded isMargin name := by
  refine .of_all (ne_nil_of_isName named) fun c member => ?_
  have letter := isNameChar_of_mem named member
  simp [isMargin, isBlank_of_isNameChar letter,
    ne_of_isNameChar letter (show isNameChar ';' = false by decide)]

section Statements

variable {text : Text} (solid : Bounded isMargin text)

include solid

theorem bounded_isBlank : Bounded isBlank text := solid.weaken isBlank_of_not_isMargin

theorem trim_solid : text.trim = text := trim_of_bounded (bounded_isBlank solid)

theorem bounded_semicolon : Bounded (· = ';') text := solid.weaken fun _ solid => (Bool.or_eq_false_iff.mp solid).2

/-- A solid text is a statement as it stands. -/
theorem trimStatement_solid : trimStatement text = text := by
  rw [trimStatement, trim_solid solid, (bounded_semicolon solid).dropEndWhile]
  exact (bounded_isBlank solid).dropEndWhile

theorem trimStatement_ended : trimStatement (text ++ [';']) = text := by
  have ended : trim (text ++ [';']) = text ++ [';'] := by
    obtain ⟨c, rest, rfl, first⟩ := (bounded_isBlank solid).first
    refine trim_of_bounded ⟨⟨c, rest ++ [';'], rfl, first⟩, ⟨c :: rest, ';', rfl, by decide⟩⟩
  rw [trimStatement, ended, dropEndWhile_append_of_pos (by decide), (bounded_semicolon solid).dropEndWhile]
  exact (bounded_isBlank solid).dropEndWhile

end Statements

/-- Behind a solid text, a statement loses the blanks at its end and nothing else. -/
theorem trimStatement_append {before after : Text} (solid : Bounded isMargin before) (absent : ';' ∉ after) :
    trimStatement (before ++ after) = before ++ trimEnd after := by
  obtain ⟨others, c, rfl, last⟩ := solid.last
  have trimmed : trim (others ++ [c] ++ after) = others ++ [c] ++ trimEnd after := by
    obtain ⟨d, rest, whole, first⟩ := (bounded_isBlank solid).first
    rw [trim, whole, List.cons_append, trimStart_of_head first, ← List.cons_append, ← whole, List.append_assoc,
      List.singleton_append, trimEnd, dropEndWhile_append_cons (isBlank_of_not_isMargin c last), ← trimEnd,
      List.append_cons]
  have solid_end : Bounded isMargin (others ++ [c] ++ trimEnd after) := by
    refine ⟨?_, ?_⟩
    · obtain ⟨d, rest, whole, first⟩ := solid.first
      exact ⟨d, rest ++ trimEnd after, by rw [whole, List.cons_append], first⟩
    · by_cases empty : trimEnd after = []
      · exact ⟨others, c, by rw [empty, List.append_nil], last⟩
      · obtain ⟨rest, d, whole, visible⟩ := trimEnd_eq_concat empty
        have member : d ∈ trimEnd after := whole ▸ List.mem_append_right _ List.mem_cons_self
        have other : d ≠ ';' := fun same => absent (same ▸ mem_of_mem_trimEnd member)
        exact ⟨others ++ [c] ++ rest, d, by rw [whole, ← List.append_assoc], by simp [isMargin, visible, other]⟩
  rw [trimStatement, trimmed, (bounded_semicolon solid_end).dropEndWhile]
  exact (bounded_isBlank solid_end).dropEndWhile

/-- An assignment to a name is no assignment through it. -/
theorem not_isIndirect_of_name {name : Text} (named : isName name) : isIndirect name = false := by
  have absent {c : Char} (mark : isNameChar c = false) : c ∉ name := not_mem_of_isName named mark
  rw [isIndirect, trim_solid (bounded_of_isName named),
    not_startsWith_of_absent (c := '*') (by decide) (absent (by decide)),
    not_mentions_of_absent (c := '>') (by decide) (absent (by decide))]
  simp [absent (c := '.') (by decide), absent (c := '[') (by decide)]

/-- A text is solid if trimming leaves it alone and no semicolon is in it. -/
theorem solid_of_trim {text : Text} (nonempty : text ≠ []) (trimmed : text.trim = text) (absent : ';' ∉ text) :
    Bounded isMargin text := by
  have blanks := bounded_of_trim nonempty trimmed
  have kept {c : Char} (member : c ∈ text) (solid : isBlank c = false) : isMargin c = false := by
    rw [isMargin, solid, Bool.false_or]
    exact decide_eq_false fun ends => absent (ends ▸ member)
  obtain ⟨c, rest, starts, first⟩ := blanks.first
  obtain ⟨others, d, ends, last⟩ := blanks.last
  exact ⟨⟨c, rest, starts, kept (starts ▸ List.mem_cons_self) first⟩,
    ⟨others, d, ends, kept (ends ▸ List.mem_append_right _ List.mem_cons_self) last⟩⟩

theorem trimStatement_blank_cons (text : Text) :
    trimStatement (' ' :: text) = trimStatement text := by
  rw [trimStatement, trim_blank_cons (by decide), trimStatement]

theorem assignmentFrom?_append {place : Text} (absent : '=' ∉ place) (before rest : Text) :
    assignmentFrom? before (place ++ rest) = assignmentFrom? (place.reverse ++ before) rest := by
  induction place generalizing before with
  | nil => rfl
  | cons c others ih =>
    obtain ⟨other, later⟩ := List.ne_and_not_mem_of_not_mem_cons absent
    rw [List.cons_append, assignmentFrom?, if_neg fun both => other both.1.symm, ih later]
    simp

theorem splitAssignment?_of_absent {text : Text} (absent : '=' ∉ text) :
    splitAssignment? text = none := by
  have scanned := assignmentFrom?_append absent [] []
  rw [List.append_nil] at scanned
  rw [splitAssignment?, scanned, assignmentFrom?]

/-- An equals sign between blanks assigns. -/
theorem splitAssignment?_spaced {place : Text} (absent : '=' ∉ place) (rest : Text) :
    splitAssignment? (place ++ ' ' :: '=' :: ' ' :: rest) =
      some { target := trim (place ++ [' ']), value := trimStatement rest, compound := false } := by
  have spaced : '=' ∉ place ++ [' '] := by simpa using absent
  have scanned := assignmentFrom?_append spaced [] ('=' :: ' ' :: rest)
  rw [List.append_assoc, List.singleton_append] at scanned
  rw [splitAssignment?, scanned, assignmentFrom?]
  simp [comparisonMarks, arithmeticMarks, trimStatement_blank_cons]

/-- A statement that assigns the value to the place. -/
def assigned (place value : Text) : Text := place ++ ' ' :: '=' :: ' ' :: (value ++ [';'])

/-- An assignment is taken apart into its place and its value. -/
theorem splitAssignment?_assigned {place value : Text} (place_solid : Bounded isMargin place)
    (absent : '=' ∉ place) (value_solid : Bounded isMargin value) :
    splitAssignment? (assigned place value) =
      some { target := place, value, compound := false } := by
  rw [assigned, splitAssignment?_spaced absent, trimStatement_ended value_solid,
    trim_append_blank (bounded_isBlank place_solid) (by decide)]

/-- A word that a blank ends is a token. -/
theorem tokens_cons {word : Text} (nonempty : word ≠ [])
    (solid : ∀ c ∈ word, ¬ isBlank c ∧ c ≠ ';' ∧ c ≠ '{' ∧ c ≠ '}') (rest : Text) :
    tokens (word ++ ' ' :: rest) = word :: tokens rest := by
  refine fields_append_cons nonempty (fun c member => ?_) (by decide) rest
  simpa [and_assoc] using solid c member

/-- A text that begins with no break has that beginning in its first token. -/
theorem tokens_append {start : Text} (nonempty : start ≠ [])
    (solid : ∀ c ∈ start, ¬ isBlank c ∧ c ≠ ';' ∧ c ≠ '{' ∧ c ≠ '}') (rest : Text) :
    ∃ more others, tokens (start ++ rest) = (start ++ more) :: others := by
  let isBreak (c : Char) := isBlank c || c = ';' || c = '{' || c = '}'
  have split : ∃ more others, (start ++ rest).splitOnP isBreak = (start ++ more) :: others := by
    clear nonempty
    induction start with
    | nil =>
      obtain ⟨more, others, same⟩ := List.exists_cons_of_ne_nil (List.splitOnP_ne_nil isBreak rest)
      exact ⟨more, others, same⟩
    | cons c start ih =>
      obtain ⟨more, others, same⟩ := ih fun d member => solid d (List.mem_cons_of_mem c member)
      have inside : isBreak c = false := by simpa [isBreak, and_assoc] using solid c List.mem_cons_self
      refine ⟨more, others, ?_⟩
      rw [List.cons_append, List.splitOnP_cons_eq_if_modifyHead, inside, same]
      rfl
  obtain ⟨more, others, same⟩ := split
  refine ⟨more, others.filter (!·.isEmpty), ?_⟩
  rw [tokens, fields, same, List.filter_cons_of_pos (by simp [nonempty])]

theorem topLevelPieces_of_absent {text : Text} (absent : ',' ∉ text) (depth : Int) :
    topLevelPieces depth text = [text] := by
  induction text generalizing depth with
  | nil => rfl
  | cons c rest ih =>
    obtain ⟨other, later⟩ := List.ne_and_not_mem_of_not_mem_cons absent
    rw [topLevelPieces, if_neg fun both => other both.1.symm, ih later]
    rfl

/-- A name that is no qualifier is not taken off. -/
theorem stripQualifiers_of_name {name : Text} (named : isName name)
    (plain : ¬ qualifiers.any (·.toList = name)) {rest : Text}
    (stop : ∀ c ∈ rest.head?, isNameChar c = false) :
    stripQualifiers (name ++ rest) = name ++ rest := by
  have begins : trimStart (name ++ rest) = name ++ rest := by
    obtain ⟨c, others, rfl, start, _⟩ := isName_cons named
    exact trimStart_of_head (isBlank_of_isNameChar (isNameChar_of_isNameStart start))
  have unqualified : afterQualifier? (trimStart (name ++ rest)) = none := by
    rw [begins, afterQualifier?, leadingName_append named stop, if_neg]
    simp only [Bool.and_eq_true, not_and]
    exact fun qualified => absurd qualified plain
  rw [stripQualifiers]
  split
  · rename_i after found
    rw [unqualified] at found
    contradiction
  · exact begins

theorem stripQualifiers_self {name : Text} (named : isName name)
    (plain : ¬ qualifiers.any (·.toList = name)) : stripQualifiers name = name := by
  have whole : stripQualifiers (name ++ []) = name ++ [] :=
    stripQualifiers_of_name named plain nofun
  rwa [List.append_nil] at whole

/-- Where no word of a type follows, a type is one word. -/
theorem leadingType?_append {name rest : Text} (named : isName name)
    (stop : ∀ c ∈ rest.head?, isNameChar c = false) (last : nextTypeWord? rest = none) :
    leadingType? (name ++ rest) = some (name, rest) := by
  have nonempty : name.isEmpty = false := by simpa using ne_nil_of_isName named
  have joined : joinTypeWords name rest = (name, rest) := by
    rw [joinTypeWords]
    split
    · rename_i found
      rw [last] at found
      contradiction
    · rfl
  rw [leadingType?, leadingName_append named stop, afterName_append named stop, nonempty, joined]
  simp

/-- No declaration starts with an equals sign behind its type. -/
theorem readDeclaration_assigned {name value : Text} (named : isName name)
    (plain : ¬ qualifiers.any (·.toList = name)) (value_solid : Bounded isMargin value)
    (absent : ',' ∉ value) : readDeclaration (assigned name value) = .error .unreadable := by
  have statement : trimStatement (assigned name value) = name ++ ' ' :: '=' :: ' ' :: value := by
    have whole := (bounded_of_isName named).join value_solid [' ', '=', ' ']
    rw [assigned]
    simpa using trimStatement_ended whole
  have stop : ∀ c ∈ (' ' :: '=' :: ' ' :: value).head?, isNameChar c = false := by
    rintro c ⟨⟩
    decide
  have no_word : nextTypeWord? (' ' :: '=' :: ' ' :: value) = none := by
    simp [nextTypeWord?, trimStart, leadingName, isPrimitive, primitiveSize?, words, fields,
      isBlank, inRanges, blankRanges, isNameChar]
  have piece (typeName : Text) :
      Declarator.read typeName (' ' :: '=' :: ' ' :: value) = .error .unreadable := by
    have none_before : '=' ∉ ([] : Text) := List.not_mem_nil
    have split := splitAssignment?_spaced none_before value
    rw [List.nil_append] at split
    rw [Declarator.read, split]
    rfl
  have single : ',' ∉ ' ' :: '=' :: ' ' :: value := by simpa using absent
  have unread (typeName : Text) :
      (topLevelPieces 0 (' ' :: '=' :: ' ' :: value)).mapM (Declarator.read typeName) =
        .error .unreadable := by
    rw [topLevelPieces_of_absent single, List.mapM_cons, piece]
    rfl
  have typed := leadingType?_append named stop no_word
  rw [readDeclaration, statement, stripQualifiers_of_name named plain stop, typed]
  exact unread name

theorem stripComments_of_absent {line : Text} (absent : '/' ∉ line) :
    stripComments line = line := by
  have whole : beforeLineComment line = line := by
    rw [beforeLineComment, around?_of_absent (c := '/') (by decide) absent]
  rw [stripComments, whole, around?_of_absent (c := '/') (by decide) absent]

/-- Where no line is blank and no slash stands, the code of a script is its lines. -/
theorem codeLines_code {script : Text}
    (plain : ∀ line ∈ script.lines, line.trim ≠ [] ∧ '/' ∉ line.trim) :
    (codeLines script).map (·.code) = script.lines.map Text.trim := by
  rw [codeLines, numberedLines]
  generalize script.lines = lines at plain
  generalize 1 = first
  induction lines generalizing first with
  | nil => rfl
  | cons line rest ih =>
    obtain ⟨nonempty, absent⟩ := plain line List.mem_cons_self
    have stripped :=
      stripComments_of_absent fun member => absent ((mem_trim (by decide)).mpr member)
    have later :=
      ih (fun other member => plain other (List.mem_cons_of_mem line member)) (first + 1)
    simp only [List.zipIdx_cons, List.map_cons, List.filterMap_cons, stripped]
    simpa [nonempty] using later

end Script

end MemoryTrace
