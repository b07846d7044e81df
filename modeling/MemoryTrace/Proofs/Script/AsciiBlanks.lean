import MemoryTrace.Proofs.Text.Bytes
import MemoryTrace.Script.CodeLine
import MemoryTrace.Script.Declaration

namespace MemoryTrace

open Text

/-- The text has no white space beyond ASCII. Its other characters may be any. -/
def Text.AsciiBlanks (text : Text) : Prop := ∀ c ∈ text, isBlank c → c.toNat < 128

instance (text : Text) : Decidable text.AsciiBlanks :=
  List.decidableBAll (fun c => isBlank c → c.toNat < 128) text

namespace Text

/-- What is true of the characters of a text is true of those of its parts. -/
theorem AsciiBlanks.mono {text part : Text} (plain : text.AsciiBlanks) (inside : part ⊆ text) : part.AsciiBlanks :=
  fun c member => plain c (inside member)

theorem trimStart_subset (text : Text) : text.trimStart ⊆ text := List.dropWhile_subset _

theorem dropEndWhile_subset (p : Char → Bool) (text : Text) : dropEndWhile p text ⊆ text := by
  intro c member
  exact List.mem_reverse.mp (List.dropWhile_subset _ (List.mem_reverse.mp member))

theorem trim_subset (text : Text) : text.trim ⊆ text :=
  List.Subset.trans (dropEndWhile_subset _ _) (trimStart_subset text)

theorem beforeLast?_subset {c : Char} {text before : Text} (found : beforeLast? c text = some before) : before ⊆ text := by
  unfold beforeLast? at found
  split at found
  · cases found
  · rename_i mark reversed cut
    rw [← Option.some.inj found]
    intro d member
    have later : d ∈ text.reverse.dropWhile (· ≠ c) := cut ▸ List.mem_cons_of_mem mark (List.mem_reverse.mp member)
    exact List.mem_reverse.mp (List.dropWhile_subset _ later)

/-- A character that joins the first piece comes from the text as the pieces do. -/
theorem subset_of_mem_modifyHead {pieces : List Text} {rest : Text} (each : ∀ piece ∈ pieces, piece ⊆ rest) (c : Char) :
    ∀ piece ∈ pieces.modifyHead (c :: ·), piece ⊆ c :: rest := by
  cases pieces with
  | nil => nofun
  | cons first more =>
    rw [List.forall_mem_cons] at each
    rw [List.modifyHead_cons, List.forall_mem_cons]
    exact ⟨List.cons_subset_cons c each.1, fun piece member => List.subset_cons_of_subset c (each.2 piece member)⟩

/-- Pieces have no characters but those of the text. -/
theorem subset_of_mem_splitOnP (p : Char → Bool) (text : Text) : ∀ piece ∈ text.splitOnP p, piece ⊆ text := by
  induction text with
  | nil => simp
  | cons c rest ih =>
    rw [List.splitOnP_cons_eq_if_modifyHead]
    split
    · rw [List.forall_mem_cons]
      exact ⟨List.nil_subset _, fun piece member => List.subset_cons_of_subset c (ih piece member)⟩
    · exact subset_of_mem_modifyHead ih c

theorem subset_of_mem_lines (text : Text) : ∀ line ∈ text.lines, line ⊆ text := by
  have pieces := subset_of_mem_splitOnP (· = '\n') text
  have ended (line : Text) (member : line ∈ ((text.splitOnP (· = '\n')).dropLast.map fun line =>
      (beforeEnd? "\r" line).getD line)) : line ⊆ text := by
    obtain ⟨whole, there, rfl⟩ := List.mem_map.mp member
    refine List.Subset.trans ?_ (pieces whole (List.dropLast_subset _ there))
    cases cut : beforeEnd? "\r" whole with
    | none => exact List.Subset.refl _
    | some before =>
      obtain rfl := List.isSuffixOf?_eq_some_iff_append_eq.mp cut
      exact List.subset_append_left ..
  intro line member
  unfold lines at member
  dsimp only at member
  split at member
  · rename_i c rest last
    rcases List.mem_append.mp member with before | itself
    · exact ended line before
    · rw [List.mem_singleton.mp itself]
      exact pieces _ (List.mem_of_getLast? last)
  · exact ended line member

end Text

namespace Script

theorem trimStatement_subset (text : Text) : trimStatement text ⊆ text :=
  List.Subset.trans (dropEndWhile_subset _ _) (List.Subset.trans (dropEndWhile_subset _ _) (trim_subset text))

theorem afterName_subset (text : Text) : afterName text ⊆ text := List.drop_subset ..

theorem stripComments_subset (line : Text) : stripComments line ⊆ line := by
  have code : beforeLineComment line ⊆ line := by
    unfold beforeLineComment
    split
    · rename_i found
      rw [eq_append_of_around? found, List.append_assoc]
      exact List.subset_append_left ..
    · exact List.Subset.refl _
  refine List.Subset.trans ?_ code
  unfold stripComments
  dsimp only
  split
  · exact List.Subset.refl _
  · rename_i before inside opened
    split
    · exact List.Subset.refl _
    · rename_i closed
      have whole := eq_append_of_around? opened
      rw [eq_append_of_around? closed] at whole
      rw [whole]
      intro c member
      rcases List.mem_append.mp member with outside | behind
      · exact List.mem_append_left _ (List.mem_append_left _ outside)
      · exact List.mem_append_right _ (List.mem_append_right _ behind)

/-- Code has no characters but those of the script. -/
theorem code_subset {script : Text} {line : CodeLine} (member : line ∈ codeLines script) : line.code ⊆ script := by
  obtain ⟨⟨number, text⟩, numbered, made⟩ := List.mem_filterMap.mp member
  obtain ⟨⟨other, place⟩, there, same⟩ := List.mem_map.mp numbered
  obtain ⟨rfl, rfl⟩ := Prod.mk.inj same
  dsimp only at made
  split at made
  · cases made
  · obtain rfl := Option.some.inj made
    refine List.Subset.trans (trim_subset _) (List.Subset.trans (stripComments_subset _) ?_)
    exact subset_of_mem_lines script _ (List.fst_mem_of_mem_zipIdx there)

theorem stripQualifiers_subset (text : Text) : stripQualifiers text ⊆ text := by
  induction text using stripQualifiers.induct with
  | case1 text after found ih =>
    have behind : after ⊆ text := by
      unfold afterQualifier? at found
      split at found
      · rw [← Option.some.inj found]
        exact List.Subset.trans (afterName_subset _) (trimStart_subset text)
      · cases found
    rw [stripQualifiers]
    split
    · rename_i other same
      obtain rfl := Option.some.inj (found.symm.trans same)
      exact List.Subset.trans ih behind
    · exact trimStart_subset text
  | case2 text unqualified =>
    rw [stripQualifiers]
    split
    · rename_i found
      cases unqualified.symm.trans found
    · exact trimStart_subset text

theorem joinTypeWords_subset (typeName text : Text) : (joinTypeWords typeName text).2 ⊆ text := by
  induction typeName, text using joinTypeWords.induct with
  | case1 typeName text word after found ih =>
    have behind : after ⊆ text := by
      unfold nextTypeWord? at found
      dsimp only at found
      split at found
      · obtain ⟨_, rfl⟩ := Prod.mk.inj (Option.some.inj found)
        exact List.Subset.trans (afterName_subset _) (trimStart_subset text)
      · cases found
    rw [joinTypeWords]
    split
    · rename_i same
      obtain ⟨rfl, rfl⟩ := Prod.mk.inj (Option.some.inj (found.symm.trans same))
      exact List.Subset.trans ih behind
    · exact List.Subset.refl _
  | case2 typeName text last =>
    rw [joinTypeWords]
    split
    · rename_i found
      cases last.symm.trans found
    · exact List.Subset.refl _

/-- What follows a type has no characters but those of the text. -/
theorem leadingType?_subset {text typeName rest : Text} (typed : leadingType? text = some (typeName, rest)) :
    rest ⊆ text := by
  unfold leadingType? at typed
  dsimp only at typed
  split at typed
  · cases typed
  · split at typed
    · have joined := joinTypeWords_subset (leadingName text) (afterName text)
      rw [Option.some.inj typed] at joined
      exact List.Subset.trans joined (afterName_subset text)
    · obtain ⟨_, rfl⟩ := Prod.mk.inj (Option.some.inj typed)
      exact afterName_subset text

/-- What stands between commas has no characters but those of the text. -/
theorem subset_of_mem_topLevelPieces (depth : Int) (text : Text) :
    ∀ piece ∈ topLevelPieces depth text, piece ⊆ text := by
  induction text generalizing depth with
  | nil => simp [topLevelPieces]
  | cons c rest ih =>
    rw [topLevelPieces]
    split
    · rw [List.forall_mem_cons]
      exact ⟨List.nil_subset _, fun piece member => List.subset_cons_of_subset c (ih depth piece member)⟩
    · exact subset_of_mem_modifyHead (ih _) c

theorem target_subset {before text : Text} {a : Assignment} (found : assignmentFrom? before text = some a) :
    a.target ⊆ before.reverse ++ text := by
  induction text generalizing before with
  | nil => cases found
  | cons c rest ih =>
    rw [assignmentFrom?] at found
    split at found
    · rw [← Option.some.inj found]
      refine List.Subset.trans (trim_subset _) fun d member => List.mem_append_left _ ?_
      split at member
      · exact List.mem_reverse.mpr (List.mem_of_mem_tail (List.mem_reverse.mp member))
      · exact member
    · simpa using ih found

/-- Without blanks beyond ASCII, a run of stars and blanks is cut off right behind its last character. -/
theorem cutStars_eq {place : Text} (plain : place.AsciiBlanks) :
    cutStars place = .ok (place.takeWhile fun c => c = '*' || isBlank c, place.dropWhile fun c => c = '*' || isBlank c) := by
  have single : byteLength (place.takeWhile fun c => c = '*' || isBlank c) =
      (place.takeWhile fun c => c = '*' || isBlank c).length := by
    refine byteLength_of_ascii fun c member => ?_
    have run := List.mem_takeWhile_imp member
    rcases Bool.or_eq_true_iff.mp run with star | blank
    · rw [of_decide_eq_true star]
      decide
    · exact plain c (List.takeWhile_subset _ member) blank
  have cut := splitAtByte?_append (place.takeWhile fun c => c = '*' || isBlank c)
    (place.dropWhile fun c => c = '*' || isBlank c)
  rw [List.takeWhile_append_dropWhile, single] at cut
  rw [cutStars, cut]

section Crashes

variable {place piece text : Text} {c : Crash}

theorem declaredLength_ne_crash (tail : Text) : declaredLength tail ≠ .error (.crash c) := by
  unfold declaredLength
  split
  · nofun
  · nofun
  · split <;> nofun
  · nofun

theorem ofPlace_ne_crash (plain : place.AsciiBlanks) (typeName : Text) (init : Option Text) :
    Declarator.ofPlace typeName place init ≠ .error (.crash c) := by
  unfold Declarator.ofPlace
  rw [cutStars_eq plain]
  simp only [bind, Except.bind]
  split
  · nofun
  · split
    · rename_i fault failed
      rintro ⟨⟩
      exact declaredLength_ne_crash _ failed
    · nofun

theorem read_ne_crash (plain : piece.AsciiBlanks) (typeName : Text) :
    Declarator.read typeName piece ≠ .error (.crash c) := by
  unfold Declarator.read
  split
  · rename_i a assigns
    split
    · nofun
    · exact ofPlace_ne_crash (plain.mono (target_subset assigns)) typeName _
  · exact ofPlace_ne_crash (plain.mono (trim_subset piece)) typeName none

/-- A list of readings fails for no reason that none of them fails for. -/
theorem mapM_ne_error {α β ε : Type} {f : α → Except ε β} {list : List α} {e : ε}
    (each : ∀ x ∈ list, f x ≠ .error e) : list.mapM f ≠ .error e := by
  induction list with
  | nil => nofun
  | cons x rest ih =>
    rw [List.forall_mem_cons] at each
    rw [List.mapM_cons]
    simp only [bind, Except.bind]
    split
    · rename_i failed
      rintro ⟨⟩
      exact each.1 failed
    · split
      · rename_i failed
        rintro ⟨⟩
        exact ih each.2 failed
      · nofun

/-- Reading a declaration does not come to a place where it cannot go on. Without white space beyond ASCII the stars
and blanks in front of a name take a byte each, so that the place where they are cut off is the right one. -/
theorem readDeclaration_ne_crash (plain : text.AsciiBlanks) : readDeclaration text ≠ .error (.crash c) := by
  unfold readDeclaration
  split
  · nofun
  · rename_i typeName rest typed
    have inside : rest ⊆ text := List.Subset.trans (leadingType?_subset typed)
      (List.Subset.trans (stripQualifiers_subset _) (trimStatement_subset text))
    refine mapM_ne_error fun piece member => read_ne_crash (plain.mono ?_) typeName
    exact List.Subset.trans (subset_of_mem_topLevelPieces 0 rest piece member) inside

end Crashes

end Script

end MemoryTrace
