import MemoryTrace.Proofs.Script.Relaid
import MemoryTrace.Proofs.Session.Blind

namespace MemoryTrace

open Script

/-- The same failure on another line. -/
def Failure.renumber (moved : Nat → Nat) : Failure → Failure
  | .script e => .script { e with line := moved e.line }
  | .crash c => .crash c

namespace Action

variable {s t : Session}

/-- The second run has come to the same as the first, on lines that were moved. -/
inductive Renumbered (logged : Prop) (moved : Nat → Nat) :
    EStateM.Result Failure Session Unit → EStateM.Result Failure Session Unit → Prop
  | ok {s t : Session} (alike : s.Resembles logged t) : Renumbered logged moved (.ok () s) (.ok () t)
  | error {s t : Session} (e : Failure) (alike : s.Resembles logged t) :
      Renumbered logged moved (.error e s) (.error (e.renumber moved) t)

/-- Runs a line by its number and its code, which is all that counts. -/
def executeCode (code : Nat × Text) : Action Unit :=
  executeCodeLine { number := code.1, text := code.2, code := code.2 }

/-- A script is run as its code, and by nothing else. -/
theorem execute_codes (script : Text) (s : Session) :
    execute script s =
      match (codes script).forM executeCode s with
      | .ok _ t => .ok () t.finish
      | .error e t => .error e t := by
  have runs (lines : List CodeLine) (s : Session) :
      (lines.map fun line => (line.number, line.code)).forM executeCode s = lines.forM executeCodeLine s := by
    induction lines generalizing s with
    | nil => rfl
    | cons line rest ih =>
      have same : executeCode (line.number, line.code) s = executeCodeLine line s := rfl
      rw [List.map_cons, Session.forM_cons_eq, Session.forM_cons_eq, same]
      cases executeCodeLine line s with
      | ok _ t => exact ih t
      | error e t => rfl
  rw [codes, runs]
  exact execute_eq script s

/-- The same code on other lines does the same. -/
theorem renumbered_codes {logged : Prop} (moved : Nat → Nat) (code : List (Nat × Text)) (alike : s.Resembles logged t) :
    Renumbered logged moved (code.forM executeCode s)
      ((code.map fun line => (moved line.1, line.2)).forM executeCode t) := by
  induction code generalizing s t with
  | nil => exact .ok alike
  | cons line rest ih =>
    have agreed : Agree logged line.1 (moved line.1) (executeCode line s) (executeCode (moved line.1, line.2) t) :=
      agree_executeCodeLine ⟨line.1, line.2, line.2⟩ ⟨moved line.1, line.2, line.2⟩ rfl alike
    rw [List.map_cons, Session.forM_cons_eq, Session.forM_cons_eq]
    generalize executeCode line s = first at agreed ⊢
    generalize executeCode (moved line.1, line.2) t = second at agreed ⊢
    cases agreed with
    | ok _ alike _ _ => exact ih alike
    | script cause alike => exact .error (.script { line := line.1, cause }) alike
    | crash c alike => exact .error (.crash c) alike

end Action

/-- With the log the same, sessions differ in the line, the last error and the notes only. -/
theorem Session.Resembles.eq {s t : Session} (alike : s.Resembles True t) :
    t = { s with line := t.line, lastError := t.lastError, notes := t.notes } := by
  obtain ⟨_, _, _, _, kept, rfl⟩ := alike
  obtain rfl := kept trivial
  rfl

/-- Lines without code may be put in, and lines may be indented, end with blanks or have a comment behind them. The
script does the same, from any session. Its memory with the log and the clock is the same at the end, and so are the
names, the classes and the scopes; if it fails, it fails for the same reason, on the line that the failing line has
become. -/
theorem layout_does_not_matter {script relaid : Text} {moved : Nat → Nat} (laid : LaidOut script relaid moved)
    (s : Session) :
    match Action.execute script s, Action.execute relaid s with
    | .ok _ t, .ok _ u => u = { t with line := u.line, lastError := u.lastError, notes := u.notes }
    | .error e t, .error f u =>
      f = e.renumber moved ∧ u = { t with line := u.line, lastError := u.lastError, notes := u.notes }
    | _, _ => False := by
  have renumbered : Action.Renumbered True moved _ _ := Action.renumbered_codes moved (codes script) (.refl s)
  rw [Action.execute_codes script, Action.execute_codes relaid, laid.codes]
  generalize (codes script).forM Action.executeCode s = first at renumbered ⊢
  generalize List.forM _ Action.executeCode s = second at renumbered ⊢
  cases renumbered with
  | ok alike => exact alike.finish.eq
  | error e alike => exact ⟨rfl, alike.eq⟩

/-- A script that fails on its second line fails on the third once there is a line more above that. -/
theorem layout_does_not_matter_of_comments :
    ∃ (script relaid : Text) (moved : Nat → Nat) (t u : Session), LaidOut script relaid moved ∧
      Action.execute script {} = .error (.script { line := 2, cause := .undefinedVariable "q" }) t ∧
      Action.execute relaid {} = .error (.script { line := 3, cause := .undefinedVariable "q" }) u ∧
      u = { t with line := u.line, lastError := u.lastError, notes := u.notes } := by
  let entry := "int main() \x7b".toList
  let fault := "delete q;".toList
  let noCode := "/* q */".toList
  let remarked := "delete q;// q".toList
  obtain ⟨script, split, fails⟩ : ∃ script, stretches script = [entry, fault] ∧
      (Action.execute script).failure? {} = some (.script { line := 2, cause := .undefinedVariable "q" }) :=
    ⟨"int main() \x7b\ndelete q;".toList, by decide +kernel⟩
  obtain ⟨longer, split_longer⟩ : ∃ longer, stretches longer = [entry, noCode, fault] :=
    ⟨"int main() \x7b\n/* q */\ndelete q;".toList, by decide +kernel⟩
  obtain ⟨relaid, split_relaid⟩ : ∃ relaid, stretches relaid = [entry, noCode, remarked] :=
    ⟨"int main() \x7b\n/* q */\ndelete q;// q".toList, by decide +kernel⟩
  have insert : Relaid (stretches script) (stretches longer) (later 1) := by
    rw [split, split_longer]
    exact .insert [entry] [fault] (by decide)
  have comment : Relaid (stretches longer) (stretches relaid) id := by
    have style : Restyled fault remarked := .comment (by decide) " q".toList
    rw [split_longer, split_relaid]
    exact .restyle [entry, noCode] [] style (.inl rfl)
  have laid : LaidOut script relaid (id ∘ later 1 ∘ id) := .change (.change .same insert) comment
  have first := Action.eq_error_of_failure? fails
  have same := layout_does_not_matter laid {}
  rw [first] at same
  cases second : Action.execute relaid {} with
  | ok _ u =>
    rw [second] at same
    contradiction
  | error f u =>
    rw [second] at same
    obtain ⟨rfl, same⟩ := same
    exact ⟨script, relaid, _, _, u, laid, first, second, same⟩

end MemoryTrace
