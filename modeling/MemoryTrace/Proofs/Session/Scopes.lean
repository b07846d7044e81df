import MemoryTrace.Proofs.Memory.Popping
import MemoryTrace.Proofs.Script.Braces
import MemoryTrace.Proofs.Session.Local
import MemoryTrace.Proofs.Session.Stepwise

namespace MemoryTrace

open Script

theorem Script.firstTokenIs_append (first second : List String) (line : Text) :
    firstTokenIs (first ++ second) line = (firstTokenIs first line || firstTokenIs second line) := by
  unfold firstTokenIs
  cases (tokens line).head? with
  | none => rfl
  | some token => simp only [Option.any_some, List.any_append]

/-- The words that make a line a class header or a return, whatever braces it has. -/
def bracelessWords : List String := ["class", "struct", "return"]

/-- What a line is taken for while no class is open, unless its first word decides that. -/
inductive TakenByBraces (s : Session) (line : Text) : StatementKind → Prop
  | enters (outside : s.inMain = false) : TakenByBraces s line .entryFunction
  | reenters (first : line.head? = some '}') (last : line.getLast? = some '{') : TakenByBraces s line .scopeReenter
  | closes (first : line.head? = some '}') (last : line.getLast? ≠ some '{') : TakenByBraces s line .scopeClose
  | opens (first : line.head? ≠ some '}') (last : line.getLast? = some '{') : TakenByBraces s line .scopeOpen
  | inner {kind : StatementKind} (inner : kind.isLocal) (first : line.head? ≠ some '}')
      (last : line.getLast? ≠ some '{') : TakenByBraces s line kind

namespace Session

variable {s t : Session} {line : Text} {kind : StatementKind}

/-- A kind is tried only when no kind before it took the line. -/
@[elab_as_elim]
theorem taken_of_ite {c : Prop} [Decidable c] {tried kind : StatementKind} {rest : Except Crash StatementKind}
    {P : StatementKind → Prop} (taken : (if c then .ok tried else rest) = .ok kind) (accepts : c → P tried)
    (passes : ¬ c → rest = .ok kind → P kind) : P kind := by
  split at taken
  · rename_i holds
    rw [← Except.ok.inj taken]
    exact accepts holds
  · rename_i fails
    exact passes fails taken

/-- The kinds of lines that count braces are told by the braces at the ends of a line. No other kind counts any. -/
theorem takenByBraces_of_classify (closed : s.openClass = none) (plain : firstTokenIs bracelessWords line = false)
    (taken : s.classify line = .ok kind) : TakenByBraces s line kind := by
  have words : firstTokenIs (["class", "struct"] ++ ["return"]) line = false := plain
  rw [firstTokenIs_append, Bool.or_eq_false_iff] at words
  have no_header : isClassHeader line = false := by rw [isClassHeader, words.1, Bool.false_and]
  unfold classify at taken
  rw [closed, no_header, words.2] at taken
  simp only [Option.isNone_none, Option.isSome_none, Bool.and_false, Bool.false_eq_true, if_false, Bool.and_eq_true,
    Bool.not_eq_true', decide_eq_true_eq] at taken
  refine taken_of_ite taken (fun enters => .enters enters.1) fun _ taken => ?_
  refine taken_of_ite taken (fun both => .reenters both.1 both.2) fun not_both taken => ?_
  refine taken_of_ite taken (fun first => .closes first fun last => not_both ⟨first, last⟩) fun first taken => ?_
  refine taken_of_ite taken (fun last => .opens first last) fun last taken => .inner ?_ first last
  refine taken_of_ite taken (fun _ => rfl) fun _ taken => ?_
  refine taken_of_ite taken (fun _ => rfl) fun _ taken => ?_
  refine taken_of_ite taken (fun _ => rfl) fun _ taken => ?_
  refine taken_of_ite taken (fun _ => rfl) fun _ taken => ?_
  refine taken_of_ite taken (fun _ => rfl) fun _ taken => ?_
  split at taken
  · exact Except.ok.inj taken ▸ rfl
  · exact Except.ok.inj taken ▸ rfl
  · contradiction

/-- One scope less. In `main` a stack block goes with it, and the last scope ends `main`. -/
structure Closes (s t : Session) : Prop where
  opened : 0 < s.scopeDepth
  depth : t.scopeDepth = s.scopeDepth - 1
  main : t.inMain = (s.inMain && s.scopeDepth ≠ 1)
  memory : s.inMain → t.memory = (s.memory.perform .endScope).2
  openClass : t.openClass = s.openClass

/-- What a line with its braces at its ends does to the scopes. -/
inductive ScopeStep (s : Session) (line : Text) (t : Session) : Prop
  | enters (outside : s.inMain = false) (inside : t.inMain) (depth : t.scopeDepth = line.count '{')
  | closes (first : line.head? = some '}') (opened : 0 < s.scopeDepth)
      (depth : (t.scopeDepth : Int) = s.scopeDepth + braceBalance line) (main : t.inMain = (s.inMain && s.scopeDepth ≠ 1))
      (memory : s.inMain → t.memory = (s.memory.perform .endScope).2)
  | stays (first : line.head? = some '}' → s.inMain = false)
      (depth : (t.scopeDepth : Int) = s.scopeDepth + braceBalance line) (main : t.inMain = s.inMain)

end Session

namespace Action

open Session (Closes ScopeStep)

variable {s t : Session} {line : Text} {kind : StatementKind}

theorem closeScope_eq_ok (closed : closeScope s = .ok () t) : s.Closes t := by
  unfold closeScope at closed
  rw [get_bind] at closed
  split at closed
  · contradiction
  · rename_i deep
    have opened := Nat.pos_of_ne_zero deep
    split at closed
    · rename_i inside
      obtain ⟨notes, left⟩ := s.leaveScope_eq
      dsimp only at closed
      rw [left] at closed
      obtain rfl := (EStateM.Result.ok.inj closed).2.symm
      split
      · exact ⟨opened, rfl, by rw [inside, Bool.true_and]; rfl, fun _ => rfl, rfl⟩
      · exact ⟨opened, rfl, by rw [inside, Bool.true_and], fun _ => rfl, rfl⟩
    · rename_i outside
      obtain rfl := (EStateM.Result.ok.inj closed).2.symm
      have outside : s.inMain = false := Bool.eq_false_iff.mpr outside
      exact ⟨opened, rfl, by rw [outside, Bool.false_and], fun inside => absurd (outside.symm.trans inside) nofun, rfl⟩

/-- Only the line that enters `main` does not go by the depth that it finds. -/
theorem enterMain_scopes (shaped : BracesAtEnds line) (outside : s.inMain = false) (ran : enterMain line s = .ok () t) :
    s.ScopeStep line t ∧ t.openClass = s.openClass := by
  have opening : line.count '{' ≤ 1 := by
    rw [shaped.count_opening]
    split <;> omega
  have closing : line.count '}' ≤ 1 := by
    rw [shaped.count_closing]
    split <;> omega
  have balance : braceBalance line = line.count '{' - line.count '}' := rfl
  have contains : line.contains '{' ↔ 0 < line.count '{' := by rw [List.contains_iff_mem, List.count_pos_iff]
  unfold enterMain at ran
  simp only [contains] at ran
  split at ran
  · obtain rfl := (EStateM.Result.ok.inj ran).2.symm
    refine ⟨.stays (fun _ => outside) ?_ rfl, rfl⟩
    change (s.scopeDepth : Int) = s.scopeDepth + braceBalance line
    omega
  · obtain rfl := (EStateM.Result.ok.inj ran).2.symm
    refine ⟨.enters outside rfl ?_, rfl⟩
    change (braceBalance line).toNat = line.count '{'
    omega

/-- A line closes a scope if it starts with a brace, and opens one if it ends with a brace. -/
theorem perform_scopes (shaped : BracesAtEnds line) (closed : s.openClass = none) (taken : TakenByBraces s line kind)
    (ran : perform line kind s = .ok () t) : s.ScopeStep line t ∧ t.openClass = none := by
  have balance := shaped.braceBalance_eq
  cases taken with
  | enters outside =>
    obtain ⟨step, same⟩ := enterMain_scopes shaped outside ran
    exact ⟨step, same.trans closed⟩
  | reenters first last =>
    obtain ⟨_, u, popped, reopened⟩ := bind_eq_ok.mp ran
    have closes := closeScope_eq_ok popped
    have opened := closes.opened
    obtain rfl := (EStateM.Result.ok.inj reopened).2.symm
    rw [if_pos first, if_pos last] at balance
    refine ⟨.closes first opened ?_ closes.main closes.memory, closes.openClass.trans closed⟩
    simp only [closes.depth]
    omega
  | closes first last =>
    have closes := closeScope_eq_ok ran
    have opened := closes.opened
    rw [if_pos first, if_neg last] at balance
    refine ⟨.closes first opened ?_ closes.main closes.memory, closes.openClass.trans closed⟩
    rw [closes.depth]
    omega
  | opens first last =>
    obtain rfl := (EStateM.Result.ok.inj ran).2.symm
    rw [if_neg first, if_pos last] at balance
    refine ⟨.stays (absurd · first) ?_ rfl, closed⟩
    simp only [balance]
    omega
  | inner inner first last =>
    obtain ⟨memory, bindings, notes, same⟩ := (Local.perform inner (.inl trivial)).after_eq s
    rw [after_of_ok ran] at same
    subst same
    rw [if_neg first, if_neg last] at balance
    refine ⟨.stays (absurd · first) ?_ rfl, closed⟩
    rw [balance, Int.sub_self, Int.add_zero]

theorem perform_failsOnly (taken : TakenByBraces s line kind) : FailsOnly (perform line kind) s fun e _ =>
    e.cause? = some .unexpectedScopeEnd → line.head? = some '}' ∧ s.scopeDepth = 0 := by
  cases taken with
  | enters =>
    change FailsOnly (enterMain line) s _
    unfold enterMain
    split
    · exact .modify _
    · exact (FailsOnly.modify _).bind fun _ _ _ => .modify _
  | reenters first =>
    exact (FailsOnly.closeScope.mono fun _ _ unopened _ => ⟨first, unopened.2⟩).bind fun _ _ _ => .modify _
  | closes first => exact FailsOnly.closeScope.mono fun _ _ unopened _ => ⟨first, unopened.2⟩
  | opens => exact .modify _
  | inner inner => exact ((Local.perform inner (.inl trivial)).failsOnly s).mono fun _ _ other same => absurd same other.1

end Action

namespace Session

variable {s t : Session} {line : Text}

/-- A line that gets through, no class being open, does to the scopes what its braces say. -/
theorem scopeStep_of_executeLine (closed : s.openClass = none) (shaped : BracesAtEnds line)
    (plain : firstTokenIs bracelessWords line = false) (ran : Action.executeLine line s = .ok () t) :
    s.ScopeStep line t ∧ t.openClass = none := by
  have stated := Action.executeLine_eq_ok ran
  cases taken : s.classify line with
  | error c =>
    rw [Action.statement, Action.get_bind, taken] at stated
    contradiction
  | ok kind =>
    have noted : TakenByBraces (s.note (.running kind line.toName)) line kind :=
      takenByBraces_of_classify closed plain taken
    have still : (s.note (.running kind line.toName)).openClass = none := closed
    obtain ⟨step, after⟩ := Action.perform_scopes shaped still noted (Action.perform_of_statement taken stated)
    refine ⟨?_, after⟩
    cases step with
    | enters outside inside depth => exact .enters outside inside depth
    | closes first opened depth main memory => exact .closes first opened depth main memory
    | stays first depth main => exact .stays first depth main

/-- The end of a scope is unexpected only where no scope is open. -/
theorem executeLine_failsOnly (closed : s.openClass = none) (plain : firstTokenIs bracelessWords line = false) :
    Action.FailsOnly (Action.executeLine line) s fun e _ =>
      e.cause? = some .unexpectedScopeEnd → line.head? = some '}' ∧ s.scopeDepth = 0 := by
  intro e t failed
  obtain ⟨u, lastError, notes, stated, rfl⟩ := Action.executeLine_eq_error failed
  cases taken : s.classify line with
  | error c =>
    rw [Action.statement, Action.get_bind, taken] at stated
    obtain rfl := (EStateM.Result.error.inj stated).1
    nofun
  | ok kind =>
    rw [Action.statement, Action.get_bind, taken] at stated
    have noted : TakenByBraces (s.note (.running kind line.toName)) line kind :=
      takenByBraces_of_classify closed plain taken
    exact Action.perform_failsOnly noted e u stated

end Session

end MemoryTrace
