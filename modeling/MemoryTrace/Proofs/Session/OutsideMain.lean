import MemoryTrace.Proofs.Session.Classes

namespace MemoryTrace

open Script

/-- What a line may be taken for outside `main`. The kinds that come behind `outsideFunction` are never tried there. -/
def StatementKind.isOuter : StatementKind → Bool
  | .classHeader | .classBody | .entryFunction | .returning | .scopeReenter | .scopeClose | .scopeOpen
  | .outsideFunction => true
  | .delete | .declareWithNew | .smartPointer | .assignment | .declaration | .unrecognized => false

/-- Memory and names are the same. -/
def Session.Untouched (s t : Session) : Prop := t.memory = s.memory ∧ t.bindings = s.bindings

/-- The kinds are tried in turn. -/
theorem StatementKind.outer_of_ite {c : Prop} [Decidable c] {tried : StatementKind}
    {rest : Except Crash StatementKind} (outer : tried.isOuter) (later : ∃ kind, rest = .ok kind ∧ kind.isOuter) :
    ∃ kind, (if c then .ok tried else rest) = .ok kind ∧ kind.isOuter := by
  split
  · exact ⟨tried, rfl, outer⟩
  · exact later

/-- Outside `main` only seven kinds come before the one that every other line is taken for. -/
theorem Session.classify_of_outside {s : Session} (outside : s.inMain = false) (line : Text) :
    ∃ kind, s.classify line = .ok kind ∧ kind.isOuter := by
  unfold classify
  rw [outside]
  iterate 7 refine StatementKind.outer_of_ite rfl ?_
  exact ⟨.outsideFunction, rfl, rfl⟩

namespace Action

open Session (Untouched)

variable {s t : Session}

/-- Outside `main` a scope takes no stack block with it. -/
theorem closeScope_of_outside (outside : s.inMain = false) :
    closeScope s = if s.scopeDepth = 0 then fail .unexpectedScopeEnd s
      else .ok () { s with scopeDepth := s.scopeDepth - 1 } := by
  unfold closeScope
  rw [get_bind, outside]
  split <;> rfl

/-- Outside `main` the end of a scope leaves memory and names alone. -/
theorem after_closeScope_of_outside (outside : s.inMain = false) : s.Untouched (closeScope.after s) := by
  have closed := closeScope_of_outside outside
  by_cases flat : s.scopeDepth = 0
  · rw [if_pos flat] at closed
    rw [after_of_error closed]
    exact ⟨rfl, rfl⟩
  · rw [if_neg flat] at closed
    rw [after_of_ok closed]
    exact ⟨rfl, rfl⟩

/-- The brace that opens the next scope comes after one that closed the last, if that was allowed. -/
theorem after_reenter_of_outside (outside : s.inMain = false) :
    s.Untouched ((do closeScope; openScope : Action Unit).after s) := by
  have closed := after_closeScope_of_outside outside
  rw [after_bind]
  cases ran : closeScope s with
  | ok _ t =>
    rw [after_of_ok ran] at closed
    exact closed
  | error e t =>
    rw [after_of_error ran] at closed
    exact closed

/-- Lines outside `main`, and lines that belong to an open class, define classes and count scopes, and that is all. -/
theorem after_perform_of_outer {kind : StatementKind} (outer : kind.isOuter) (line : Text)
    (apart : s.inMain = false ∨ kind = .classBody) : s.Untouched ((perform line kind).after s) := by
  have outside (other : kind ≠ .classBody) : s.inMain = false := apart.resolve_right other
  cases kind with
  | classHeader => exact (Plain.beginClass line).after_eq s
  | classBody => exact (Plain.classBody line).after_eq s
  | entryFunction => exact (Plain.enterMain line).after_eq s
  | scopeReenter => exact after_reenter_of_outside (outside nofun)
  | scopeClose => exact after_closeScope_of_outside (outside nofun)
  | scopeOpen => exact Plain.openScope.after_eq s
  | returning | outsideFunction => exact ⟨rfl, rfl⟩
  | delete | declareWithNew | smartPointer | assignment | declaration | unrecognized => contradiction

/-- A line outside `main` leaves memory alone. The note that it runs is no part of memory, nor does it enter
`main`. -/
theorem after_statement_of_outside (apart : s.inMain = false ∨ s.openClass.isSome) (line : Text) :
    s.Untouched ((statement line).after s) := by
  obtain ⟨kind, taken, outer, its⟩ : ∃ kind, s.classify line = .ok kind ∧ kind.isOuter ∧
      (s.inMain = false ∨ kind = .classBody) := by
    rcases apart with outside | opened
    · obtain ⟨kind, taken, outer⟩ := Session.classify_of_outside outside line
      exact ⟨kind, taken, outer, .inl outside⟩
    · exact ⟨.classBody, Session.classify_of_open opened line, rfl, .inr rfl⟩
  unfold statement
  rw [after_read, taken]
  exact after_perform_of_outer (s := s.note (.running kind line.toName)) outer line its

end Action

/-- Outside `main`, and while a class is open, no line touches memory or gives a name another meaning, whatever its text
and whether it succeeds or fails. -/
theorem lines_outside_main_touch_nothing {s : Session} (apart : s.inMain = false ∨ s.openClass.isSome) (line : Text) :
    ((Action.executeLine line).after s).memory = s.memory ∧
      ((Action.executeLine line).after s).bindings = s.bindings := by
  obtain ⟨lastError, notes, same⟩ := Action.after_executeLine_eq line s
  rw [same]
  exact Action.after_statement_of_outside apart line

/-- A class is open inside `main`, so `delete p;` is a member that cannot be read, and `p` keeps its block. -/
theorem lines_outside_main_touch_nothing_of_open_class :
    ∃ s : Session, s.Reachable ∧ s.inMain ∧ s.openClass.isSome ∧ s.memory.liveBlocks.length = 2 ∧
      ((Action.executeLine "delete p;".toList).after s).memory = s.memory ∧
      ((Action.executeLine "delete p;".toList).after s).bindings = s.bindings := by
  obtain ⟨s, reach, inside, opened, live⟩ : ∃ s : Session, s.Reachable ∧ s.inMain ∧ s.openClass.isSome ∧
      s.memory.liveBlocks.length = 2 :=
    ⟨(Action.execute "int main() \x7b\n  int* p = new int;\n  struct Point \x7b\n".toList).after {}, .script _ .fresh,
      by decide +kernel⟩
  exact ⟨s, reach, inside, opened, live, lines_outside_main_touch_nothing (.inr opened) _⟩

end MemoryTrace
