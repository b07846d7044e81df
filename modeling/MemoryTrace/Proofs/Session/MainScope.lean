import MemoryTrace.Proofs.Session.Reach
import MemoryTrace.Proofs.Session.Scopes

namespace MemoryTrace

open Script

namespace Session

variable {s t u : Session} {line : Text} {lines : List Text}

/-- From this depth on, the depth of the braces never gets to zero in the text. -/
def StaysOpen (depth : Nat) (text : Text) : Prop := Throughout (fun balance => (depth : Int) + balance ≠ 0) text

instance (depth : Nat) (text : Text) : Decidable (StaysOpen depth text) :=
  inferInstanceAs (Decidable (Throughout _ text))

/-- What stays open to the end of a text stays open to the end of its first part. -/
theorem StaysOpen.left {depth : Nat} {first second : Text} (opened : StaysOpen depth (first ++ second)) :
    StaysOpen depth first :=
  fun read part => opened read (part.trans (List.prefix_append first second))

theorem StaysOpen.right {depth later : Nat} {first second : Text} (opened : StaysOpen depth (first ++ second))
    (moved : (later : Int) = depth + braceBalance first) : StaysOpen later second := by
  intro read part
  have further := opened (first ++ read) ((List.prefix_append_right_inj first).mpr part)
  rw [braceBalance_append] at further
  omega

/-- A text stays open if its parts do, one after the other. -/
theorem StaysOpen.append {depth later : Nat} {first second : Text} (opened : StaysOpen depth first)
    (moved : (later : Int) = depth + braceBalance first) (further : StaysOpen later second) :
    StaysOpen depth (first ++ second) := by
  intro read part
  rcases List.prefix_or_prefix_of_prefix part (List.prefix_append first second) with within | ⟨more, rfl⟩
  · exact opened read within
  · have inner := further more ((List.prefix_append_right_inj first).mp part)
    rw [braceBalance_append]
    omega

/-- The session is in `main`, no class is open in it, and so many scopes are. From the first line of `main` on, this
is the depth of the braces that were read. -/
structure InMainAt (s : Session) (depth : Int) : Prop where
  inside : s.inMain
  closed : s.openClass = none
  depth : s.scopeDepth = depth

/-- A line on which the depth does not get to zero stays in `main`. -/
theorem InMainAt.executeLine {depth : Int} (inMain : s.InMainAt depth) (shaped : BracesAtEnds line)
    (plain : firstTokenIs bracelessWords line = false) (ran : Action.executeLine line s = .ok () t)
    (opened : StaysOpen s.scopeDepth line) : t.InMainAt (depth + braceBalance line) := by
  have inside := inMain.inside
  have before := inMain.depth
  obtain ⟨step, closed⟩ := scopeStep_of_executeLine inMain.closed shaped plain ran
  cases step with
  | enters outside => exact absurd (outside.symm.trans inside) nofun
  | closes first _ after main =>
    obtain ⟨rest, rfl⟩ := List.head?_eq_some_iff.mp first
    have deeper : (s.scopeDepth : Int) + braceBalance ['}'] ≠ 0 := opened ['}'] ⟨rest, rfl⟩
    have one : braceBalance ['}'] = -1 := rfl
    have more : s.scopeDepth ≠ 1 := by omega
    refine ⟨?_, closed, by omega⟩
    rw [main, inside, Bool.true_and, decide_eq_true more]
  | stays _ after main => exact ⟨main.trans inside, closed, by omega⟩

/-- So do any number of such lines. -/
theorem InMainAt.executeLines {depth : Int} (inMain : s.InMainAt depth) (shaped : ∀ line ∈ lines, BracesAtEnds line)
    (plain : ∀ line ∈ lines, firstTokenIs bracelessWords line = false)
    (ran : lines.forM Action.executeLine s = .ok () t) (opened : StaysOpen s.scopeDepth lines.flatten) :
    t.InMainAt (depth + braceBalance lines.flatten) := by
  induction lines generalizing s depth with
  | nil =>
    obtain rfl := (EStateM.Result.ok.inj ran).2
    have none_read : braceBalance [].flatten = 0 := rfl
    rwa [none_read, Int.add_zero]
  | cons line rest ih =>
    obtain ⟨_, next, first, later⟩ := Action.bind_eq_ok.mp ran
    rw [List.forall_mem_cons] at shaped plain
    rw [List.flatten_cons] at opened ⊢
    have arrived := inMain.executeLine shaped.1 plain.1 first opened.left
    have before := inMain.depth
    have after := arrived.depth
    rw [braceBalance_append, ← Int.add_assoc]
    exact ih arrived shaped.2 plain.2 later (opened.right (by omega))

/-- A line after which the session is still in `main` has not got the depth to zero. -/
theorem staysOpen_of_inMain (deep : s.scopeDepth ≠ 0) (inside : s.inMain) (shaped : BracesAtEnds line)
    (step : s.ScopeStep line t) (still : t.inMain) : StaysOpen s.scopeDepth line := by
  intro read part
  have lowest := shaped.braceBalance_of_prefix part
  cases step with
  | enters outside => exact absurd (outside.symm.trans inside) nofun
  | closes first _ _ main =>
    rw [main, inside, Bool.true_and, decide_eq_true_eq] at still
    rw [if_pos first] at lowest
    omega
  | stays first =>
    have no_closing : line.head? ≠ some '}' := fun closing => absurd ((first closing).symm.trans inside) nofun
    rw [if_neg no_closing] at lowest
    omega

/-- Whether `main` ends or not, no class is opened. -/
theorem closed_of_lines (closed : s.openClass = none) (shaped : ∀ line ∈ lines, BracesAtEnds line)
    (plain : ∀ line ∈ lines, firstTokenIs bracelessWords line = false)
    (ran : lines.forM Action.executeLine s = .ok () t) : t.openClass = none := by
  induction lines generalizing s with
  | nil =>
    obtain rfl := (EStateM.Result.ok.inj ran).2
    exact closed
  | cons line rest ih =>
    obtain ⟨_, next, first, later⟩ := Action.bind_eq_ok.mp ran
    rw [List.forall_mem_cons] at shaped plain
    exact ih (scopeStep_of_executeLine closed shaped.1 plain.1 first).2 shaped.2 plain.2 later

theorem Reachable.executeLines (reach : s.Reachable) (ran : lines.forM Action.executeLine s = .ok () t) : t.Reachable := by
  induction lines generalizing s with
  | nil =>
    obtain rfl := (EStateM.Result.ok.inj ran).2
    exact reach
  | cons line rest ih =>
    obtain ⟨_, next, first, later⟩ := Action.bind_eq_ok.mp ran
    exact ih (Action.after_of_ok first ▸ reach.line line) later

end Session

open Session (StaysOpen)

/-- Some lines get through, of which the first finds the session in `main`. They have their braces at their ends. As
long as the depth of braces has not got to zero the session is in `main`, and its depth is that of the braces. On the
line on which it first gets to zero, be it in the middle of the line, `main` ends. And every closing brace that is
read in `main` takes the newest live block off the stack, unless there is none. -/
theorem main_ends_at_its_brace {s t : Session} {lines : List Text} (reach : s.Reachable) (inside : s.inMain)
    (closed : s.openClass = none) (shaped : ∀ line ∈ lines, BracesAtEnds line)
    (plain : ∀ line ∈ lines, firstTokenIs ["class", "struct", "return"] line = false)
    (ran : lines.forM Action.executeLine s = .ok () t) :
    ∀ before line after, lines = before ++ line :: after →
      ∃ u v, before.forM Action.executeLine s = .ok () u ∧ Action.executeLine line u = .ok () v ∧
        (StaysOpen s.scopeDepth (before.flatten ++ line) →
          v.inMain ∧ v.scopeDepth = (s.scopeDepth : Int) + braceBalance (before.flatten ++ line)) ∧
        (StaysOpen s.scopeDepth before.flatten → ¬ StaysOpen s.scopeDepth (before.flatten ++ line) →
          v.inMain = false) ∧
        (u.inMain → '}' ∈ line →
          (u.memory.stackBlocks = [] ∧ v.memory = u.memory) ∨ ∃ b, u.memory.Pops b v.memory) := by
  rintro before line after rfl
  rw [List.forall_mem_append, List.forall_mem_cons] at shaped plain
  rw [Session.forM_append_eq] at ran
  cases first : before.forM Action.executeLine s with
  | error e u =>
    rw [first] at ran
    contradiction
  | ok _ u =>
    rw [first] at ran
    obtain ⟨_, v, done, _⟩ := Action.bind_eq_ok.mp ran
    have closed_before := Session.closed_of_lines closed shaped.1 plain.1 first
    obtain ⟨step, _⟩ := Session.scopeStep_of_executeLine closed_before shaped.2.1 plain.2.1 done
    have start : s.InMainAt s.scopeDepth := ⟨inside, closed, rfl⟩
    refine ⟨u, v, rfl, done, fun opened => ?_, fun opened ends => ?_, fun in_main brace => ?_⟩
    · have arrived := start.executeLines shaped.1 plain.1 first opened.left
      have stayed := arrived.executeLine shaped.2.1 plain.2.1 done (opened.right arrived.depth)
      rw [braceBalance_append, ← Int.add_assoc]
      exact ⟨stayed.inside, stayed.depth⟩
    · have arrived := start.executeLines shaped.1 plain.1 first opened
      have deep : (s.scopeDepth : Int) + braceBalance before.flatten ≠ 0 := opened _ List.prefix_rfl
      have depth := arrived.depth
      refine Bool.eq_false_iff.mpr fun still => ends (opened.append depth ?_)
      exact Session.staysOpen_of_inMain (by omega) arrived.inside shaped.2.1 step still
    · have sound : u.memory.Sound := (reach.executeLines first).memory_reachable.sound
      have starts := shaped.2.1.first_of_mem brace
      cases step with
      | enters outside => exact absurd (outside.symm.trans in_main) nofun
      | closes _ _ _ _ memory =>
        rw [memory in_main]
        exact sound.pops_endScope
      | stays outside => exact absurd ((outside starts).symm.trans in_main) nofun

/-- An `else` closes a scope in `main` and opens one, so that `main` goes on. It takes the newest block off the stack.
The last closing brace ends `main`. -/
theorem main_ends_at_its_brace_of_else :
    ∃ s u v w t : Session, s.Reachable ∧ s.inMain ∧ s.scopeDepth = 1 ∧
      (["if (x) \x7b", "int y;"].map (·.toList)).forM Action.executeLine s = .ok () u ∧
      Action.executeLine "\x7d else \x7b".toList u = .ok () v ∧ v.inMain ∧ v.scopeDepth = (2 : Int) ∧
      (∃ b, u.memory.Pops b v.memory) ∧
      (["if (x) \x7b", "int y;", "\x7d else \x7b", "\x7d"].map (·.toList)).forM Action.executeLine s = .ok () w ∧
      Action.executeLine "\x7d".toList w = .ok () t ∧ t.inMain = false := by
  obtain ⟨s, reach, inside, closed, deep, through, still, filled⟩ : ∃ s : Session, s.Reachable ∧ s.inMain ∧
      s.openClass = none ∧ s.scopeDepth = 1 ∧
      ((["if (x) \x7b", "int y;", "\x7d else \x7b", "\x7d", "\x7d"].map (·.toList)).forM Action.executeLine).run' s =
        some () ∧
      (((["if (x) \x7b", "int y;"].map (·.toList)).forM Action.executeLine).after s).inMain ∧
      (((["if (x) \x7b", "int y;"].map (·.toList)).forM Action.executeLine).after s).memory.stackBlocks ≠ [] :=
    ⟨(Action.execute "int main() \x7b\n  int x;\n".toList).after {}, .script _ .fresh, by decide +kernel⟩
  have each := main_ends_at_its_brace reach inside closed (by decide +kernel) (by decide +kernel)
    (Action.eq_ok_of_run' through)
  obtain ⟨u, v, opened, reopened, stays, _, pops⟩ := each (["if (x) \x7b", "int y;"].map (·.toList)) _ _ rfl
  obtain ⟨w, t, almost, last, _, ends, _⟩ :=
    each (["if (x) \x7b", "int y;", "\x7d else \x7b", "\x7d"].map (·.toList)) _ [] rfl
  rw [deep] at stays ends
  rw [Action.after_of_ok opened] at still filled
  have two := stays (by decide +kernel)
  refine ⟨s, u, v, w, t, reach, inside, deep, opened, reopened, two.1, two.2.trans (by decide +kernel), ?_, almost, last,
    ends (by decide +kernel) (by decide +kernel)⟩
  rcases pops still (by decide) with ⟨empty, _⟩ | popped
  · exact absurd empty filled
  · exact popped

end MemoryTrace
