import MemoryTrace.Proofs.Session.Scopes

namespace MemoryTrace

open Script

/-- Every closing brace of the text has an opening one before it. -/
def Script.Balanced (text : Text) : Prop := Throughout (0 ≤ ·) text

instance (text : Text) : Decidable (Balanced text) := inferInstanceAs (Decidable (Throughout _ text))

/-- The code of some lines, without what separates them. -/
def codeOfLines (lines : List CodeLine) : Text := (lines.map (·.code)).flatten

/-- Wherever the lines run into `main`, every scope is closed that was opened before its header. `read` is what was read
before these lines. -/
def entersOutermost : List CodeLine → Text → Session → Bool
  | [], _, _ => true
  | line :: rest, read, s =>
    match Action.executeCodeLine line s with
    | .ok _ t =>
      (s.inMain || !t.inMain || braceBalance (read ++ line.code) = line.code.count '{') &&
        entersOutermost rest (read ++ line.code) t
    | .error _ _ => true

namespace Session

variable {s t : Session} {line : CodeLine} {read : Text}

/-- A line that gets through leaves the depth of scopes at that of the braces. -/
theorem depth_of_codeLine (closed : s.openClass = none) (depth : s.scopeDepth = braceBalance read)
    (shaped : BracesAtEnds line.code) (plain : firstTokenIs bracelessWords line.code = false)
    (outermost : s.inMain = false → t.inMain → braceBalance (read ++ line.code) = line.code.count '{')
    (ran : Action.executeCodeLine line s = .ok () t) :
    t.openClass = none ∧ t.scopeDepth = braceBalance (read ++ line.code) := by
  have started : ({ s with line := line.number, memory := s.memory.tick } : Session).openClass = none := closed
  obtain ⟨step, after⟩ := scopeStep_of_executeLine started shaped plain ran
  refine ⟨after, ?_⟩
  cases step with
  | enters outside inside count => rw [outermost outside inside, count]
  | closes _ _ moved | stays _ moved =>
    rw [braceBalance_append, moved, ← depth]

/-- Where the depth is zero, the braces of the text so far leave none to close, so that no scope ends too early. -/
theorem no_unexpected_end {lines : List CodeLine} (closed : s.openClass = none)
    (depth : s.scopeDepth = braceBalance read) (shaped : ∀ line ∈ lines, BracesAtEnds line.code)
    (plain : ∀ line ∈ lines, firstTokenIs bracelessWords line.code = false)
    (balanced : Balanced (read ++ codeOfLines lines)) (outermost : entersOutermost lines read s) :
    Action.FailsOnly (lines.forM Action.executeCodeLine) s fun e _ => e.cause? ≠ some .unexpectedScopeEnd := by
  induction lines generalizing s read with
  | nil => exact .pure _
  | cons line rest ih =>
    rw [List.forall_mem_cons] at shaped plain
    have code : read ++ codeOfLines (line :: rest) = (read ++ line.code) ++ codeOfLines rest :=
      (List.append_assoc ..).symm
    rw [code] at balanced
    refine Action.FailsOnly.bind (fun e t failed unexpected => ?_) fun _ t ran => ?_
    · have started : ({ s with line := line.number, memory := s.memory.tick } : Session).openClass = none := closed
      obtain ⟨first, flat⟩ := executeLine_failsOnly started plain.1 e t failed unexpected
      obtain ⟨more, starts⟩ := List.head?_eq_some_iff.mp first
      have within := balanced (read ++ ['}']) ⟨more ++ codeOfLines rest, by simp [starts]⟩
      have one : braceBalance ['}'] = -1 := rfl
      have zero : s.scopeDepth = 0 := flat
      rw [braceBalance_append, ← depth, zero, one] at within
      contradiction
    · unfold entersOutermost at outermost
      rw [ran] at outermost
      simp only [Bool.and_eq_true, Bool.or_eq_true, Bool.not_eq_true', decide_eq_true_eq] at outermost
      obtain ⟨entry, later⟩ := outermost
      have header (outside : s.inMain = false) (inside : t.inMain) :
          braceBalance (read ++ line.code) = line.code.count '{' := by
        rw [outside, inside] at entry
        simpa using entry
      obtain ⟨still, moved⟩ := depth_of_codeLine closed depth shaped.1 plain.1 header ran
      exact ih still moved shaped.2 plain.2 balanced later

end Session

/-- A balanced script with its braces at the ends of its lines ends no scope unexpectedly, if no scope is open where
`main` is entered. -/
theorem balanced_scripts_end_no_scope_unexpectedly (script : Text)
    (shaped : ∀ line ∈ codeLines script, BracesAtEnds line.code)
    (plain : ∀ line ∈ codeLines script, firstTokenIs ["class", "struct", "return"] line.code = false)
    (balanced : Balanced (codeOfLines (codeLines script))) (outermost : entersOutermost (codeLines script) [] {}) :
    ∀ n t, Action.execute script {} ≠ .error (.script { line := n, cause := .unexpectedScopeEnd }) t := by
  intro n t failed
  have fresh : (({} : Session).scopeDepth : Int) = braceBalance [] := rfl
  have lines := Session.no_unexpected_end rfl fresh shaped plain balanced outermost
  exact (lines.bind fun _ _ _ => .modify Session.finish) _ t failed rfl

/-- Blocks in `main`, and functions on both sides of it. -/
theorem balanced_scripts_end_no_scope_unexpectedly_of_functions :
    ∃ script : Text, (∀ line ∈ codeLines script, BracesAtEnds line.code) ∧ Balanced (codeOfLines (codeLines script)) ∧
      (codeOfLines (codeLines script)).count '}' = 5 ∧
      ∀ n t, Action.execute script {} ≠ .error (.script { line := n, cause := .unexpectedScopeEnd }) t := by
  obtain ⟨script, shaped, plain, balanced, outermost, closing⟩ : ∃ script : Text,
      (∀ line ∈ codeLines script, BracesAtEnds line.code) ∧
      (∀ line ∈ codeLines script, firstTokenIs ["class", "struct", "return"] line.code = false) ∧
      Balanced (codeOfLines (codeLines script)) ∧ entersOutermost (codeLines script) [] {} ∧
      (codeOfLines (codeLines script)).count '}' = 5 :=
    ⟨("void f() \x7b\n\x7d\nint main()\n\x7b\n  if (x) \x7b\n    int y;\n" ++
      "  \x7d else \x7b\n  \x7d\n\x7d\nvoid g() \x7b\n\x7d\n").toList,
      by decide +kernel⟩
  exact ⟨script, shaped, balanced, closing,
    balanced_scripts_end_no_scope_unexpectedly script shaped plain balanced outermost⟩

/-- Where a scope is open around `main`, entering `main` forgets it. Its closing brace is unexpected then, though it has
an opening one. -/
theorem scope_around_main_ends_unexpectedly :
    ¬ ∀ script : Text, (∀ line ∈ codeLines script, BracesAtEnds line.code) →
      (∀ line ∈ codeLines script, firstTokenIs ["class", "struct", "return"] line.code = false) →
      Balanced (codeOfLines (codeLines script)) →
      ∀ n t, Action.execute script {} ≠ .error (.script { line := n, cause := .unexpectedScopeEnd }) t := by
  intro always
  have fails : (Action.execute "namespace n \x7b\nint main() \x7b\n\x7d\n\x7d\n".toList).failure? {} =
      some (.script { line := 4, cause := .unexpectedScopeEnd }) := by decide +kernel
  exact always _ (by decide +kernel) (by decide +kernel) (by decide +kernel) _ _ (Action.eq_error_of_failure? fails)

end MemoryTrace
