import MemoryTrace.Proofs.Text.Scanning
import MemoryTrace.Script.CodeLine
import MemoryTrace.Viewer.Highlight

namespace MemoryTrace

open Text

namespace Script

/-- The line from its first `//` on. -/
def lineComment? (line : Text) : Option Text := (line.around? "//").map fun sides => "//".toList ++ sides.2

variable {c : Char} {rest line comment : Text}

/-- A line has a comment where it has a mark. -/
theorem lineComment?_isSome (line : Text) : (lineComment? line).isSome = line.mentions "//" := Option.isSome_map

/-- A comment begins where the code in front of it ends, and takes the rest of the line. -/
theorem lineComment?_first (found : lineComment? line = some comment) :
    IsLeast {i | "//".toList <+: line.drop i} (beforeLineComment line).length ∧
      line = beforeLineComment line ++ comment := by
  obtain ⟨⟨before, after⟩, parted, rfl⟩ := Option.map_eq_some_iff.mp found
  have code : beforeLineComment line = before := by rw [beforeLineComment, parted]
  rw [code, ← List.append_assoc]
  exact ⟨around?_first (by decide) parted, eq_append_of_around? parted⟩

/-- A line without a comment is left as it is. -/
theorem beforeLineComment_of_none (absent : lineComment? line = none) : beforeLineComment line = line := by
  rw [beforeLineComment, Option.map_eq_none_iff.mp absent]

section Start

variable (start : Text.startsWith "//" (c :: rest))

include start

theorem around?_of_start : ∃ after, c :: rest = "//".toList ++ after ∧ around? "//" (c :: rest) = some ([], after) := by
  obtain ⟨after, whole⟩ := List.isPrefixOf_iff_prefix.mp start
  have taken : "//".toList.isPrefixOf? (c :: rest) = some after := List.isPrefixOf?_eq_some_iff_append_eq.mpr whole
  exact ⟨after, whole.symm, by rw [around?, taken]⟩

/-- A comment that begins here takes the rest of the line. -/
theorem lineComment?_of_start : lineComment? (c :: rest) = some (c :: rest) := by
  obtain ⟨after, whole, parted⟩ := around?_of_start start
  rw [lineComment?, parted, Option.map_some, whole]

theorem beforeLineComment_of_start : beforeLineComment (c :: rest) = [] := by
  obtain ⟨after, _, parted⟩ := around?_of_start start
  rw [beforeLineComment, parted]

end Start

section Later

variable (later : ¬ Text.startsWith "//" (c :: rest))

include later

theorem around?_of_later : around? "//" (c :: rest) = (around? "//" rest).map fun sides => (c :: sides.1, sides.2) := by
  have missing : "//".toList.isPrefixOf? (c :: rest) = none :=
    isPrefixOf?_eq_none_iff.mpr fun start => later (List.isPrefixOf_iff_prefix.mpr start)
  rw [around?, missing]

/-- A comment that does not begin here begins later. -/
theorem lineComment?_of_later : lineComment? (c :: rest) = lineComment? rest := by
  rw [lineComment?, around?_of_later later, Option.map_map]
  rfl

theorem beforeLineComment_of_later : beforeLineComment (c :: rest) = c :: beforeLineComment rest := by
  rw [beforeLineComment, beforeLineComment, around?_of_later later]
  cases around? "//" rest <;> rfl

end Later

end Script

namespace Viewer

open Script

/-- The text of some spans. -/
def spansText (spans : List Span) : Text := spans.flatMap (·.text)

/-- No span is colored as a comment. -/
def Uncommented (spans : List Span) : Prop := ∀ span ∈ spans, span.style ≠ commentStyle

variable {spans more : List Span} {word line : Text} {style : Style}

/-- Spans without a comment stay so when they are joined. -/
theorem Uncommented.append (first : Uncommented spans) (second : Uncommented more) : Uncommented (spans ++ more) :=
  List.forall_mem_append.mpr ⟨first, second⟩

theorem spansText_append (spans more : List Span) : spansText (spans ++ more) = spansText spans ++ spansText more :=
  List.flatMap_append

theorem wordStyle_ne_commentStyle (word : Text) (opens : Bool) : wordStyle word opens ≠ commentStyle := by
  unfold wordStyle
  dsimp only
  repeat' split
  all_goals decide

theorem symbolStyle_ne_commentStyle (c : Char) : symbolStyle c ≠ commentStyle := by
  unfold symbolStyle
  split <;> decide

/-- The span of a word reads as the word. -/
theorem spansText_wordSpan (word : Text) (style : Style) : spansText (wordSpan word style) = word := by
  cases word <;> simp [wordSpan, spansText]

theorem wordSpan_uncommented (other : style ≠ commentStyle) (word : Text) : Uncommented (wordSpan word style) := by
  cases word with
  | nil => exact List.forall_mem_nil _
  | cons c rest => exact List.forall_mem_singleton.mpr other

/-- The span of a comment, if there is one. -/
def commentSpan (line : Text) : List Span :=
  (lineComment? line).toList.map fun comment => { text := comment, style := commentStyle }

/-- The word read so far comes first, and then the code in front of the comment. -/
theorem highlightFrom_eq (word line : Text) : ∃ code, highlightFrom word line = code ++ commentSpan line ∧
    spansText code = word ++ beforeLineComment line ∧ Uncommented code := by
  induction line generalizing word with
  | nil =>
    refine ⟨wordSpan word (wordStyle word false), (List.append_nil _).symm, ?_, ?_⟩
    · rw [spansText_wordSpan]
      exact (List.append_nil word).symm
    · exact wordSpan_uncommented (wordStyle_ne_commentStyle word false) word
  | cons c rest ih =>
    unfold highlightFrom
    split
    · rename_i start
      refine ⟨wordSpan word {}, ?_, ?_, wordSpan_uncommented (by decide) word⟩
      · rw [commentSpan, lineComment?_of_start start]
        rfl
      · rw [spansText_wordSpan, beforeLineComment_of_start start, List.append_nil]
    · rename_i later
      rw [commentSpan, lineComment?_of_later later, ← commentSpan, beforeLineComment_of_later later]
      split
      · obtain ⟨code, same, text, uncommented⟩ := ih (word ++ [c])
        exact ⟨code, same, by rw [text, List.append_assoc]; rfl, uncommented⟩
      · obtain ⟨code, same, text, uncommented⟩ := ih []
        let opens : Bool := c = '(' || c = '<'
        refine ⟨wordSpan word (wordStyle word opens) ++ { text := [c], style := symbolStyle c } :: code, ?_, ?_, ?_⟩
        · rw [same, List.append_assoc, List.cons_append]
        · have symbol : spansText ({ text := [c], style := symbolStyle c } :: code) = c :: spansText code := rfl
          rw [spansText_append, spansText_wordSpan, symbol, text]
          rfl
        · refine (wordSpan_uncommented (wordStyle_ne_commentStyle word opens) word).append ?_
          exact List.forall_mem_cons.mpr ⟨symbolStyle_ne_commentStyle c, uncommented⟩

/-- The spans of a line read as the line. If it has a `//` then the last of them is the comment, from the first `//` to
the end, and the others read as what stripping leaves in front of it. None of the others is colored as a comment. -/
theorem highlight_keeps_text (line : Text) :
    spansText (highlight line) = line ∧ ∃ code, spansText code = beforeLineComment line ∧ Uncommented code ∧
      if line.mentions "//" then
        ∃ i, IsLeast {i | "//".toList <+: line.drop i} i ∧ beforeLineComment line = line.take i ∧
          highlight line = code ++ [{ text := line.drop i, style := commentStyle }]
      else highlight line = code := by
  obtain ⟨code, same, text, uncommented⟩ := highlightFrom_eq [] line
  rw [List.nil_append] at text
  rw [highlight, same, spansText_append, text, commentSpan, ← lineComment?_isSome]
  cases found : lineComment? line with
  | none =>
    rw [beforeLineComment_of_none found] at text ⊢
    exact ⟨List.append_nil line, code, text, uncommented, List.append_nil code⟩
  | some comment =>
    obtain ⟨first, whole⟩ := lineComment?_first found
    have taken : line.take (beforeLineComment line).length = beforeLineComment line :=
      (congrArg _ whole).trans List.take_left
    have dropped : line.drop (beforeLineComment line).length = comment := (congrArg _ whole).trans List.drop_left
    refine ⟨?_, code, text, uncommented, _, first, taken.symm, by rw [dropped]; rfl⟩
    calc beforeLineComment line ++ spansText [{ text := comment, style := commentStyle }]
        = beforeLineComment line ++ comment := congrArg _ (List.append_nil comment)
      _ = line := whole.symm

/-- A comment in a comment, behind a word that would otherwise be a keyword. -/
theorem highlight_keeps_text_of_two_comments :
    ∃ code, spansText code = "f(new".toList ∧ Uncommented code ∧
      highlight "f(new// a // b".toList = code ++ [{ text := "// a // b".toList, style := commentStyle }] := by
  obtain ⟨_, code, text, uncommented, rest⟩ := highlight_keeps_text "f(new// a // b".toList
  rw [if_pos (by decide)] at rest
  obtain ⟨i, _, taken, same⟩ := rest
  obtain rfl : i = 5 := by
    have length : 5 = min i 14 := (congrArg List.length taken).trans List.length_take
    omega
  exact ⟨code, text, uncommented, same⟩

end Viewer

end MemoryTrace
