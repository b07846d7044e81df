import MemoryTrace.Proofs.Script.Angles
import MemoryTrace.Proofs.Script.Cuts

namespace MemoryTrace.Script

open Text

/-- As `AnglesMatch`, with some brackets open in front of the text that are closed in it. -/
structure AnglesClose (nested : Nat) (text : Text) : Prop where
  closed : text.count '>' = text.count '<' + nested
  opened : ∀ read, read <+: text → read.count '>' ≤ read.count '<' + nested

/-- One more character in front moves the depth by what it opens or closes. -/
theorem AnglesClose.cons {c : Char} {text : Text} {nested deeper : Nat} (angles : AnglesClose deeper text)
    (moved : [c].count '>' + deeper = [c].count '<' + nested) : AnglesClose nested (c :: text) := by
  have count_cons (mark : Char) (text : Text) : (c :: text).count mark = [c].count mark + text.count mark := by
    rw [← List.singleton_append, List.count_append]
  constructor
  · have balanced := angles.closed
    rw [count_cons '>', count_cons '<']
    omega
  · intro read part
    cases read with
    | nil => exact Nat.zero_le _
    | cons first others =>
      obtain ⟨rfl, later⟩ := List.cons_prefix_cons.mp part
      have here := angles.opened others later
      rw [count_cons '>', count_cons '<']
      omega

section Closing

variable {nested : Nat} {text argument after : Text}

/-- The scan stops no earlier than where all brackets are closed, those from in front of the text too. Unless the scan
stops at it, a character only moves the depth by what it opens or closes. -/
theorem anglesClose_of_closeAngle? (found : closeAngle? nested text = some (argument, after)) :
    AnglesClose nested argument := by
  induction text generalizing nested argument with
  | nil => cases found
  | cons c rest ih =>
    have passed {deeper : Nat} (moved : [c].count '>' + deeper = [c].count '<' + nested)
        (found : (closeAngle? deeper rest).map (fun sides => (c :: sides.1, sides.2)) = some (argument, after)) :
        AnglesClose nested argument := by
      obtain ⟨sides, later, same⟩ := Option.map_eq_some_iff.mp found
      obtain ⟨rfl, rfl⟩ := Prod.mk.inj same
      exact (ih later).cons moved
    unfold closeAngle? at found
    dsimp only at found
    by_cases opens : c = '<'
    · subst opens
      exact passed (by simp [Nat.add_comm]) found
    · rw [if_neg opens] at found
      by_cases closes : c = '>'
      · subst closes
        cases nested with
        | zero =>
          obtain ⟨rfl, rfl⟩ := Prod.mk.inj (Option.some.inj found)
          exact ⟨rfl, fun read part => List.prefix_nil.mp part ▸ le_rfl⟩
        | succ nested => exact passed (by simp [Nat.add_comm]) found
      · rw [if_neg closes] at found
        exact passed (by simp [opens, closes]) found

/-- The scan finds the bracket that closes what was open, if there is one. -/
theorem closeAngle?_eq_some_iff :
    closeAngle? nested text = some (argument, after) ↔
      text = argument ++ '>' :: after ∧ AnglesClose nested argument := by
  constructor
  · intro found
    exact ⟨Bytewise.closeAngle?_eq_append found, anglesClose_of_closeAngle? found⟩
  · rintro ⟨rfl, angles⟩
    exact closeAngle?_nested angles.closed angles.opened after

end Closing

/-- A text with a template in it: what stands in front of its first angle bracket, the argument as it is written, and
what follows the bracket that closes it. -/
structure Template (text before argument after : Text) : Prop where
  whole : text = before ++ '<' :: (argument ++ '>' :: after)
  first : '<' ∉ before
  angles : AnglesMatch argument

section Templates

variable {text before argument after : Text}

theorem template_iff : Template text before argument after ↔
    ∃ inside, text = before ++ '<' :: inside ∧ '<' ∉ before ∧ closeAngle? 0 inside = some (argument, after) := by
  constructor
  · rintro ⟨whole, first, angles⟩
    exact ⟨_, whole, first, closeAngle?_eq_some_iff.mpr ⟨rfl, angles.closed, angles.opened⟩⟩
  · rintro ⟨inside, whole, first, found⟩
    obtain ⟨rfl, angles⟩ := closeAngle?_eq_some_iff.mp found
    exact ⟨whole, first, angles.closed, angles.opened⟩

/-- A text is split exactly where it has a template, and the argument is trimmed. -/
theorem splitTemplate?_eq_some_iff :
    splitTemplate? text = some (argument, after) ↔
      ∃ before raw, Template text before raw after ∧ argument = raw.trim := by
  constructor
  · intro split
    by_cases opened : '<' ∈ text
    · obtain ⟨before, inside, rfl, first⟩ := List.eq_append_cons_of_mem opened
      rw [splitTemplate?, dropWhile_ne_append first] at split
      obtain ⟨sides, found, same⟩ := Option.map_eq_some_iff.mp split
      obtain ⟨rfl, rfl⟩ := Prod.mk.inj same
      exact ⟨before, sides.1, template_iff.mpr ⟨inside, rfl, first, found⟩, rfl⟩
    · rw [splitTemplate?, dropWhile_of_absent opened] at split
      contradiction
  · rintro ⟨before, raw, template, rfl⟩
    rw [template.whole]
    exact splitTemplate?_append template.first template.angles after

/-- There are never two ways to read a template. -/
theorem Template.unique {before' argument' after' : Text} (template : Template text before argument after)
    (other : Template text before' argument' after') : before = before' ∧ argument = argument' ∧ after = after' := by
  obtain ⟨inside, whole, first, found⟩ := template_iff.mp template
  obtain ⟨inside', whole', first', found'⟩ := template_iff.mp other
  have same : before ++ '<' :: inside = before' ++ '<' :: inside' := whole.symm.trans whole'
  have front := congrArg (List.takeWhile (· ≠ '<')) same
  rw [takeWhile_ne_append first, takeWhile_ne_append first'] at front
  subst front
  obtain rfl := (List.cons.inj (List.append_cancel_left same)).2
  obtain ⟨rfl, rfl⟩ := Prod.mk.inj (Option.some.inj (found.symm.trans found'))
  exact ⟨rfl, rfl, rfl⟩

end Templates

namespace Bytewise

/-- The values that the depth takes while a text is scanned for the bracket that brings it back to zero. Here it is an
integer, which can fall below zero. -/
def depths (depth : Int) : Text → List Int
  | [] => []
  | c :: rest =>
    if c = '<' then (depth + 1) :: depths (depth + 1) rest
    else if c = '>' then (depth - 1) :: if depth - 1 = 0 then [] else depths (depth - 1) rest
    else depths depth rest

/-- The scan with a depth that is a natural number fails where the depth would fall below zero, and nowhere else. -/
theorem closingFrom?_isSome_iff (depth start : Nat) (text : Text) :
    (closingFrom? depth (charIndices start text)).isSome ↔ ∀ d ∈ depths depth text, 0 ≤ d := by
  induction text generalizing depth start with
  | nil => exact iff_of_true rfl (List.forall_mem_nil _)
  | cons c rest ih =>
    have later (deeper : Nat) := ih deeper (start + c.utf8Size)
    rw [charIndices]
    unfold closingFrom? depths
    by_cases opens : c = '<'
    · rw [if_pos opens, if_pos opens, List.forall_mem_cons, later (depth + 1)]
      exact (and_iff_right (by omega)).symm
    · rw [if_neg opens, if_neg opens]
      by_cases closes : c = '>'
      · rw [if_pos closes, if_pos closes, List.forall_mem_cons]
        rcases depth with _ | _ | depth
        · exact iff_of_false Bool.false_ne_true fun both => absurd both.1 (by decide)
        · exact iff_of_true rfl ⟨by decide, List.forall_mem_nil _⟩
        · have less : ((depth + 2 : Nat) : Int) - 1 = (depth + 1 : Nat) := by omega
          rw [less, if_neg (by omega)]
          exact (later (depth + 1)).trans (and_iff_right (by omega)).symm
      · rw [if_neg closes, if_neg closes]
        exact later depth

/-- The scan never closes more than was opened. -/
theorem depths_nonneg (text : Text) : ∀ d ∈ depths 0 (text.dropWhile (· ≠ '<')), 0 ≤ d := by
  by_cases opened : '<' ∈ text
  · obtain ⟨before, inside, rfl, first⟩ := List.eq_append_cons_of_mem opened
    have scanned : closingFrom? 0 (charIndices 0 ('<' :: inside)) = some _ := closingFrom?_eq 0 1 inside
    rw [dropWhile_ne_append first]
    exact (closingFrom?_isSome_iff 0 0 _).mp (Option.isSome_of_eq_some scanned)
  · rw [dropWhile_of_absent opened]
    exact List.forall_mem_nil _

end Bytewise

/-- A text is split around the argument that its first angle bracket opens and the matching one closes. There is one
such argument at most, and where there is none the text is not split. The depth never falls below zero on any text,
matched or not, so that the scan by bytes, which would fail there, comes to the same. -/
theorem template_is_matched (text : Text) :
    (∀ argument after, splitTemplate? text = some (argument, after) ↔
      ∃ before raw, Template text before raw after ∧ argument = raw.trim) ∧
    (∀ before raw after before' raw' after', Template text before raw after → Template text before' raw' after' →
      before = before' ∧ raw = raw' ∧ after = after') ∧
    (splitTemplate? text = none ↔ ¬ ∃ before raw after, Template text before raw after) ∧
    (∀ d ∈ Bytewise.depths 0 (text.dropWhile (· ≠ '<')), 0 ≤ d) ∧
    Bytewise.template? text = some (splitTemplate? text) := by
  refine ⟨fun _ _ => splitTemplate?_eq_some_iff, fun _ _ _ _ _ _ => Template.unique, ?_, Bytewise.depths_nonneg text,
    Bytewise.template?_eq text⟩
  constructor
  · rintro missing ⟨before, raw, after, template⟩
    have split := splitTemplate?_eq_some_iff.mpr ⟨before, raw, template, rfl⟩
    exact nomatch missing.symm.trans split
  · intro none_there
    by_contra split
    obtain ⟨⟨_, after⟩, found⟩ := Option.ne_none_iff_exists'.mp split
    obtain ⟨before, raw, template, _⟩ := splitTemplate?_eq_some_iff.mp found
    exact none_there ⟨before, raw, after, template⟩

/-- The argument has two levels of brackets inside and blanks around it, and one more bracket closes behind it. -/
theorem template_is_matched_of_nested :
    ∃ text before raw after : Text, text = "map< p<a, q<b>> , c > x > y".toList ∧ Template text before raw after ∧
      splitTemplate? text = some ("p<a, q<b>> , c".toList, " x > y".toList) ∧
      ∀ before' raw' after', Template text before' raw' after' → before' = before ∧ raw' = raw ∧ after' = after := by
  let text := "map< p<a, q<b>> , c > x > y".toList
  have template : Template text "map".toList " p<a, q<b>> , c ".toList " x > y".toList :=
    ⟨by decide, by decide, by decide +kernel⟩
  obtain ⟨split, unique, _⟩ := template_is_matched text
  have trimmed : "p<a, q<b>> , c".toList = Text.trim " p<a, q<b>> , c ".toList := by decide +kernel
  exact ⟨text, _, _, _, rfl, template, (split _ _).mpr ⟨_, _, template, trimmed⟩,
    fun _ _ _ other => unique _ _ _ _ _ _ other template⟩

end MemoryTrace.Script
