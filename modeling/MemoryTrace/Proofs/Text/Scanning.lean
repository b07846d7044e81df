import Mathlib.Data.List.Infix
import Mathlib.Data.List.TakeWhile
import Mathlib.Order.Bounds.Basic
import MemoryTrace.Text.Blank

namespace MemoryTrace.Text

/-- A mark is not cut off where the text does not begin with it. -/
theorem isPrefixOf?_eq_none_iff {mark text : Text} : mark.isPrefixOf? text = none ↔ ¬ mark <+: text := by
  rw [Option.eq_none_iff_forall_ne_some]
  constructor
  · rintro missing ⟨tail, whole⟩
    exact missing tail (List.isPrefixOf?_eq_some_iff_append_eq.mpr whole)
  · intro missing tail start
    exact missing ⟨tail, List.isPrefixOf?_eq_some_iff_append_eq.mp start⟩

theorem around?_isSome {mark : String} {text : Text} :
    (around? mark text).isSome ↔ mark.toList <:+: text := by
  induction text with
  | nil => simp [around?, apply_ite]
  | cons c rest ih =>
    rw [List.infix_cons_iff, ← ih, around?]
    cases found : mark.toList.isPrefixOf? (c :: rest) with
    | some after =>
      have start : mark.toList <+: c :: rest := ⟨after, (eq_append_of_isPrefixOf? found).symm⟩
      simp [start]
    | none =>
      have no_start : ¬ mark.toList <+: c :: rest := isPrefixOf?_eq_none_iff.mp found
      simp [no_start]

section Marks

variable {mark : String} {text before after : Text}

/-- A mark at the start of a text ends before a later one does. -/
theorem isPrefix_before_iff {mark before after : Text} :
    mark <+: before ++ (mark ++ after) ↔ before = [] ∨ mark <+: before ++ mark.dropLast := by
  have inside : before ++ mark.dropLast <+: before ++ (mark ++ after) :=
    (List.prefix_append_right_inj before).mpr ((List.dropLast_prefix mark).trans (List.prefix_append ..))
  constructor
  · intro start
    rcases before.eq_nil_or_concat' with empty | later
    · exact .inl empty
    · refine .inr (List.prefix_of_prefix_length_le start inside ?_)
      obtain ⟨rest, c, rfl⟩ := later
      simp only [List.length_append, List.length_dropLast, List.length_singleton]
      omega
  · rintro (rfl | start)
    · exact List.prefix_append ..
    · exact start.trans inside

/-- `around?` parts a text at the first place where the mark stands whole. Nothing that lacks the last character of
the mark can hold all of it. -/
theorem around?_eq_some_iff (nonempty : mark ≠ "") :
    around? mark text = some (before, after) ↔
      text = before ++ (mark.toList ++ after) ∧ ¬ mark.toList <:+: before ++ mark.toList.dropLast := by
  have some_char : mark.toList ≠ [] := String.toList_eq_nil_iff.not.mpr nonempty
  have short : mark.toList.dropLast.length < mark.toList.length := by
    have length := List.length_pos_of_ne_nil some_char
    rw [List.length_dropLast]
    omega
  constructor
  · intro found
    refine ⟨by rw [eq_append_of_around? found, List.append_assoc], ?_⟩
    induction text generalizing before after with
    | nil => simp [around?, nonempty] at found
    | cons c rest ih =>
      have whole : c :: rest = before ++ (mark.toList ++ after) := by
        rw [eq_append_of_around? found, List.append_assoc]
      unfold around? at found
      split at found
      · obtain ⟨rfl, rfl⟩ := Prod.mk.inj (Option.some.inj found)
        exact fun inside => absurd inside.length_le (Nat.not_le.mpr short)
      · rename_i no_start
        obtain ⟨⟨left, right⟩, later, same⟩ := Option.map_eq_some_iff.mp found
        obtain ⟨rfl, rfl⟩ := Prod.mk.inj same
        rw [isPrefixOf?_eq_none_iff, whole, isPrefix_before_iff, not_or] at no_start
        rw [List.cons_append, List.infix_cons_iff]
        exact not_or.mpr ⟨no_start.2, ih later⟩
  · rintro ⟨rfl, first⟩
    induction before with
    | nil =>
      obtain ⟨c, more, same⟩ := List.exists_cons_of_ne_nil some_char
      have start : mark.toList.isPrefixOf? (mark.toList ++ after) = some after :=
        List.isPrefixOf?_eq_some_iff_append_eq.mpr rfl
      rw [List.nil_append]
      rw [same, List.cons_append] at start ⊢
      unfold around?
      rw [same, start]
    | cons c rest ih =>
      have no_start : mark.toList.isPrefixOf? (c :: rest ++ (mark.toList ++ after)) = none := by
        rw [isPrefixOf?_eq_none_iff, isPrefix_before_iff, not_or]
        exact ⟨List.cons_ne_nil c rest, fun start => first start.isInfix⟩
      rw [List.cons_append, List.infix_cons_iff, not_or] at first
      rw [List.cons_append] at no_start ⊢
      unfold around?
      rw [no_start]
      dsimp only
      rw [ih first.2, Option.map_some]

/-- No earlier place has the mark. -/
theorem around?_first (nonempty : mark ≠ "") (found : around? mark text = some (before, after)) :
    IsLeast {i | mark.toList <+: text.drop i} before.length := by
  obtain ⟨whole, first⟩ := (around?_eq_some_iff nonempty).mp found
  have some_char := List.length_pos_of_ne_nil (String.toList_eq_nil_iff.not.mpr nonempty)
  refine ⟨⟨after, by rw [whole, List.drop_left]⟩, fun i start => ?_⟩
  by_contra earlier
  have inside : (before ++ mark.toList.dropLast).drop i <+: text.drop i := by
    rw [whole]
    exact ((List.prefix_append_right_inj before).mpr
      ((List.dropLast_prefix _).trans (List.prefix_append ..))).drop i
  have fits : mark.toList.length ≤ ((before ++ mark.toList.dropLast).drop i).length := by
    rw [List.length_drop, List.length_append, List.length_dropLast]
    omega
  exact first ((List.prefix_of_prefix_length_le start inside fits).isInfix.trans (List.drop_suffix ..).isInfix)

/-- A mark is not found in a head that it shares no character with. -/
theorem around?_prepend (nonempty : mark ≠ "") {head : Text} (absent : ∀ c ∈ head, c ∉ mark.toList) (text : Text) :
    around? mark (head ++ text) = (around? mark text).map fun sides => (head ++ sides.1, sides.2) := by
  obtain ⟨m, more, same⟩ := List.exists_cons_of_ne_nil (String.toList_eq_nil_iff.not.mpr nonempty)
  induction head with
  | nil => simp
  | cons c rest ih =>
    have other : m ≠ c := fun equal => absent c List.mem_cons_self (by rw [same, equal]; exact List.mem_cons_self)
    have no_start : mark.toList.isPrefixOf? (c :: (rest ++ text)) = none := by
      rw [same, cons_isPrefixOf?_cons, if_neg (by simpa using other)]
    rw [List.cons_append, around?, no_start]
    dsimp only
    rw [ih fun d member => absent d (List.mem_cons_of_mem c member), Option.map_map]
    rfl

end Marks

theorem mentions_iff {word : String} {text : Text} : text.mentions word ↔ word.toList <:+: text :=
  around?_isSome

/-- A word without this character stands on one side of it. -/
theorem infix_append_cons {word before after : Text} {c : Char} (absent : c ∉ word) :
    word <:+: before ++ c :: after ↔ word <:+: before ∨ word <:+: after := by
  constructor
  · intro found
    rcases List.infix_append_iff_ne_nil.mp found with left | right |
      ⟨first, second, _, nonempty, rfl, _, start⟩
    · exact .inl left
    · rcases List.infix_cons_iff.mp right with start | later
      · rcases List.prefix_cons_iff.mp start with rfl | ⟨rest, rfl, _⟩
        · exact .inl (List.nil_infix)
        · exact absurd List.mem_cons_self absent
      · exact .inr later
    · rcases List.prefix_cons_iff.mp start with rfl | ⟨rest, rfl, _⟩
      · exact absurd rfl nonempty
      · exact absurd (List.mem_append_right _ List.mem_cons_self) absent
  · rintro (left | right)
    · exact left.trans (List.prefix_append ..).isInfix
    · exact right.trans ((List.suffix_cons c after).trans (List.suffix_append ..)).isInfix

/-- A word without this character stands on one side of it. -/
theorem mentions_append_cons {word : String} {before after : Text} {c : Char}
    (absent : c ∉ word.toList) :
    (before ++ c :: after).mentions word = (before.mentions word || after.mentions word) := by
  rw [Bool.eq_iff_iff, Bool.or_eq_true, mentions_iff, mentions_iff, mentions_iff]
  exact infix_append_cons absent

theorem dropEndWhile_append_of_neg {p : Char → Bool} {c : Char} (kept : p c = false) (text : Text) :
    dropEndWhile p (text ++ [c]) = text ++ [c] := by
  simp [dropEndWhile, kept]

theorem dropEndWhile_append_of_pos {p : Char → Bool} {c : Char} (dropped : p c) (text : Text) :
    dropEndWhile p (text ++ [c]) = dropEndWhile p text := by
  simp [dropEndWhile, dropped]

/-- Dropping from the end stops at a character that is kept. -/
theorem dropEndWhile_append_cons {p : Char → Bool} {c : Char} (kept : p c = false) (before after : Text) :
    dropEndWhile p (before ++ c :: after) = before ++ c :: dropEndWhile p after := by
  have whole : (c :: before.reverse).dropWhile p = c :: before.reverse := List.dropWhile_cons_of_neg (by simpa using kept)
  simp only [dropEndWhile, List.reverse_append, List.reverse_cons, List.append_assoc, List.singleton_append,
    List.dropWhile_append, whole]
  split
  · rename_i dropped
    simp [List.isEmpty_iff.mp dropped]
  · simp

section First

variable {c : Char} {before : Text} (absent : c ∉ before)

include absent

theorem ne_of_absent : ∀ d ∈ before, decide (d ≠ c) := fun _ member => decide_eq_true fun same => absent (same ▸ member)

theorem dropWhile_of_absent : before.dropWhile (· ≠ c) = [] := List.dropWhile_eq_nil_iff.mpr (ne_of_absent absent)

/-- A scan for a character stops at the first one. -/
theorem dropWhile_ne_append (after : Text) : (before ++ c :: after).dropWhile (· ≠ c) = c :: after := by
  rw [List.dropWhile_append_of_pos (ne_of_absent absent)]
  exact List.dropWhile_cons_of_neg (by simp)

/-- A scan takes what stands in front of the first such character. -/
theorem takeWhile_ne_append (after : Text) : (before ++ c :: after).takeWhile (· ≠ c) = before := by
  rw [List.takeWhile_append_of_pos (ne_of_absent absent), List.takeWhile_cons_of_neg (by simp), List.append_nil]

theorem beforeLast?_of_absent : beforeLast? c before = none := by
  have reversed : c ∉ before.reverse := fun member => absent (List.mem_reverse.mp member)
  rw [beforeLast?, dropWhile_of_absent reversed]

end First

/-- The last such character is found before all those that are none. -/
theorem beforeLast?_append {c : Char} {after : Text} (absent : c ∉ after) (before : Text) :
    beforeLast? c (before ++ c :: after) = some before := by
  have reversed : c ∉ after.reverse := fun member => absent (List.mem_reverse.mp member)
  rw [beforeLast?, List.reverse_append, List.reverse_cons, List.append_assoc, List.singleton_append,
    dropWhile_ne_append reversed]
  dsimp only
  rw [List.reverse_reverse]

/-- A character that stands in a text has a last place there. -/
theorem exists_last_of_mem {c : Char} {text : Text} (member : c ∈ text) :
    ∃ before after, text = before ++ c :: after ∧ c ∉ after := by
  obtain ⟨after, before, reversed, absent⟩ := List.eq_append_cons_of_mem (List.mem_reverse.mpr member)
  refine ⟨before.reverse, after.reverse, ?_, fun member => absent (List.mem_reverse.mp member)⟩
  rw [← List.reverse_reverse text, reversed]
  simp

/-- The text begins and ends with characters that `p` is false of. -/
structure Bounded (p : Char → Bool) (text : Text) : Prop where
  first : ∃ c rest, text = c :: rest ∧ p c = false
  last : ∃ rest c, text = rest ++ [c] ∧ p c = false

namespace Bounded

variable {p : Char → Bool} {text before after : Text}

theorem join (before_bounded : Bounded p before) (after_bounded : Bounded p after)
    (between : Text) : Bounded p (before ++ (between ++ after)) := by
  obtain ⟨c, rest, rfl, first⟩ := before_bounded.first
  obtain ⟨others, d, rfl, last⟩ := after_bounded.last
  refine ⟨⟨c, rest ++ (between ++ (others ++ [d])), rfl, first⟩,
    ⟨c :: (rest ++ (between ++ others)), d, ?_, last⟩⟩
  simp

theorem of_all (nonempty : text ≠ []) (all : ∀ c ∈ text, p c = false) : Bounded p text where
  first := ⟨text.head nonempty, text.tail, (List.cons_head_tail nonempty).symm,
    all _ (List.head_mem nonempty)⟩
  last := ⟨text.dropLast, text.getLast nonempty, (List.dropLast_append_getLast nonempty).symm,
    all _ (List.getLast_mem nonempty)⟩

theorem dropWhile (bounded : Bounded p text) : text.dropWhile p = text := by
  obtain ⟨c, rest, rfl, first⟩ := bounded.first
  simp [first]

theorem dropEndWhile (bounded : Bounded p text) : dropEndWhile p text = text := by
  obtain ⟨rest, c, rfl, last⟩ := bounded.last
  exact dropEndWhile_append_of_neg last rest

theorem weaken {q : Char → Bool} (bounded : Bounded p text)
    (weaker : ∀ c, p c = false → q c = false) : Bounded q text := by
  obtain ⟨⟨c, rest, starts, first⟩, ⟨others, d, ends, last⟩⟩ := bounded
  exact ⟨⟨c, rest, starts, weaker c first⟩, ⟨others, d, ends, weaker d last⟩⟩

end Bounded

/-- A text with no blank at its ends is trimmed already. -/
theorem trim_of_bounded {text : Text} (solid : Bounded isBlank text) : text.trim = text := by
  rw [trim, trimStart, solid.dropWhile]
  exact solid.dropEndWhile

/-- Where nothing was dropped, the first character was not to be dropped. -/
theorem first_of_dropWhile {p : Char → Bool} {text : Text} (nonempty : text ≠ []) (kept : text.dropWhile p = text) :
    ∃ c rest, text = c :: rest ∧ p c = false := by
  obtain ⟨c, rest, rfl⟩ := List.exists_cons_of_ne_nil nonempty
  refine ⟨c, rest, rfl, Bool.eq_false_iff.mpr fun dropped => ?_⟩
  rw [List.dropWhile_cons_of_pos dropped] at kept
  have shorter := (List.dropWhile_sublist (l := rest) p).length_le
  rw [kept, List.length_cons] at shorter
  omega

theorem trimStart_append (before after : Text) :
    trimStart (before ++ after) = if trimStart before = [] then trimStart after else trimStart before ++ after := by
  rw [trimStart, List.dropWhile_append]
  exact if_congr List.isEmpty_iff rfl rfl

/-- Blanks are all that is taken off the end of a text. -/
theorem exists_blanks (text : Text) : ∃ blanks, text = trimEnd text ++ blanks ∧ ∀ c ∈ blanks, isBlank c := by
  refine ⟨(text.reverse.takeWhile isBlank).reverse, ?_, fun c member => ?_⟩
  · rw [trimEnd, dropEndWhile, ← List.reverse_append, List.takeWhile_append_dropWhile, List.reverse_reverse]
  · exact List.mem_takeWhile_imp (List.mem_reverse.mp member)

theorem mem_of_mem_trimEnd {c : Char} {text : Text} (member : c ∈ trimEnd text) : c ∈ text := by
  obtain ⟨blanks, whole, _⟩ := exists_blanks text
  exact whole ▸ List.mem_append_left blanks member

/-- What is left of a trimmed text ends with a character that is no blank. -/
theorem trimEnd_eq_concat {text : Text} (nonempty : trimEnd text ≠ []) :
    ∃ rest c, trimEnd text = rest ++ [c] ∧ isBlank c = false := by
  have reversed : text.reverse.dropWhile isBlank ≠ [] := fun same => nonempty (by simp [trimEnd, dropEndWhile, same])
  obtain ⟨c, rest, starts, visible⟩ := first_of_dropWhile reversed (trimStart_trimStart text.reverse)
  exact ⟨rest.reverse, c, by rw [trimEnd, dropEndWhile, starts, List.reverse_cons], visible⟩

/-- A text that trimming leaves alone has no blank at its ends. -/
theorem bounded_of_trim {text : Text} (nonempty : text ≠ []) (trimmed : text.trim = text) : Bounded isBlank text := by
  have shorter : text.trim.length ≤ text.trimStart.length := by
    have ends := (List.dropWhile_sublist (l := text.trimStart.reverse) isBlank).length_le
    rwa [List.length_reverse, ← List.length_reverse] at ends
  have start : text.trimStart = text := by
    rw [trimmed] at shorter
    exact (List.dropWhile_sublist isBlank).eq_of_length_le shorter
  have ends : text.reverse.dropWhile isBlank = text.reverse := by
    rw [trim, start, trimEnd, dropEndWhile] at trimmed
    rw [← List.reverse_reverse (text.reverse.dropWhile isBlank), trimmed]
  obtain ⟨c, rest, reversed, last⟩ := first_of_dropWhile (List.reverse_ne_nil_iff.mpr nonempty) ends
  refine ⟨first_of_dropWhile nonempty start, rest.reverse, c, ?_, last⟩
  rw [← List.reverse_reverse text, reversed, List.reverse_cons]

theorem trim_blank_cons {c : Char} (blank : isBlank c) (text : Text) :
    trim (c :: text) = text.trim := by
  simp [trim, trimStart, blank]

theorem trim_blanks_append {head : Text} (blank : ∀ c ∈ head, isBlank c) (text : Text) :
    trim (head ++ text) = trim text := by
  rw [trim, trimStart, List.dropWhile_append, if_pos]
  · rfl
  · exact List.isEmpty_iff.mpr (List.dropWhile_eq_nil_iff.mpr blank)

theorem trim_append_blank {text : Text} {c : Char} (solid : Bounded isBlank text)
    (blank : isBlank c) : trim (text ++ [c]) = text := by
  have begins : trimStart (text ++ [c]) = text ++ [c] := by
    obtain ⟨first, rest, rfl, kept⟩ := solid.first
    exact trimStart_of_head kept
  rw [trim, begins, trimEnd, dropEndWhile_append_of_pos blank]
  exact solid.dropEndWhile

/-- Trimming takes away nothing but blanks. -/
theorem mem_trim {c : Char} (solid : isBlank c = false) {text : Text} :
    c ∈ text.trim ↔ c ∈ text := by
  have start (text : Text) : c ∈ text.dropWhile isBlank ↔ c ∈ text := by
    induction text with
    | nil => rfl
    | cons d rest ih =>
      rw [List.dropWhile_cons]
      split
      · rename_i blank
        have other : c ≠ d := fun same => by simp [same, blank] at solid
        rw [ih, List.mem_cons, or_iff_right other]
      · rfl
  rw [trim, trimEnd, dropEndWhile, List.mem_reverse, start, List.mem_reverse, trimStart, start]

theorem fields_append_cons {isBreak : Char → Bool} {word : Text} {c : Char} (nonempty : word ≠ [])
    (solid : ∀ d ∈ word, isBreak d = false) (breaks : isBreak c) (rest : Text) :
    fields isBreak (word ++ c :: rest) = word :: fields isBreak rest := by
  have split : (word ++ c :: rest).splitOnP isBreak = word :: rest.splitOnP isBreak :=
    List.splitOnP_append_cons_of_forall_mem solid c breaks rest
  simp [fields, split, nonempty]

end MemoryTrace.Text
