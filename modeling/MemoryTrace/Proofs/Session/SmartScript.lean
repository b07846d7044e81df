import MemoryTrace.Proofs.Memory.Disciplined
import MemoryTrace.Proofs.Session.SmartStatement
import MemoryTrace.Proofs.Session.Stepwise

namespace MemoryTrace

open Script Text

namespace Action

theorem filter_simple (target value : Text) :
    (some ({ target, value, compound := false } : Assignment)).filter (!·.compound) =
      some { target, value, compound := false } :=
  rfl

/-- A declaration of a smart pointer is read as it is written. What stands behind the name may initialise it. -/
theorem smartPointer_declared {line T x : Text} (tail : Text) (init : Option Text) (kind : SmartKind)
    (angles : AnglesMatch T) (named : isName x) (apart : ∀ c ∈ tail.head?, isNameChar c = false)
    (reads : splitAssignment? line =
      init.map fun value => { target := declared kind T (x ++ tail), value, compound := false })
    (place : init = none → trimStatement line = declared kind T (x ++ tail)) :
    smartPointer line =
      declareSmart x (disciplineOf (smartType kind T)) T.trim (init.orElse fun _ => directInit? tail.trim) := by
  have behind : trimStart (' ' :: (x ++ tail)) = x ++ tail := by
    obtain ⟨c, rest, rfl, solid⟩ := (bounded_isBlank (bounded_of_isName named)).first
    rw [trimStart, List.dropWhile_cons_of_pos (by decide)]
    exact trimStart_of_head solid
  have nonempty : x.isEmpty = false := by simpa using ne_nil_of_isName named
  unfold smartPointer
  rw [reads]
  cases init with
  | none =>
    dsimp only [Option.map_none, Option.filter_none]
    rw [place rfl, stripQualifiers_declared, if_pos (startsWithSmartType_declared kind T _),
      splitTemplate?_declared kind angles]
    dsimp only
    rw [take_declared, behind, leadingName_append named apart, afterName_append named apart, nonempty]
    rfl
  | some value =>
    rw [Option.map_some, filter_simple]
    dsimp only
    rw [stripQualifiers_declared, if_pos (startsWithSmartType_declared kind T _), splitTemplate?_declared kind angles]
    dsimp only
    rw [take_declared, behind, leadingName_append named apart, nonempty]
    rfl

/-- An assignment to a variable assigns, also in a line that mentions a smart pointer. -/
theorem smartPointer_assigned {x value : Text} (usable : IsVariable x) (plain : PlainValue value) :
    smartPointer (assigned x value) = assign x value false := by
  have named := usable.named
  have not_auto : x ≠ "auto".toList := by
    rintro rfl
    exact usable.unreserved (by decide)
  unfold smartPointer
  rw [splitAssignment?_of_name named plain.solid, filter_simple]
  dsimp only
  rw [stripQualifiers_self named usable.not_qualifier,
    not_startsWithSmartType_of_name named usable.untagged, leadingName_self named,
    if_neg (by decide), if_neg not_auto]

theorem assignment_assigned {x value : Text} (usable : IsVariable x) (solid : Bounded isMargin value)
    (single : ',' ∉ value) : assignment (assigned x value) = assign x value false := by
  have named := usable.named
  have no_declaration : declaration? (assigned x value) = pure none := by
    rw [declaration?, readDeclaration_assigned named usable.not_qualifier solid single]
  unfold assignment
  rw [no_declaration, splitAssignment?_of_name named solid]
  rfl

end Action

namespace Session.Smart

variable {uses : Text → SmartKind} {s t : Session}

/-- An ordinary statement keeps to smart pointers if it does so in both readings. -/
theorem ordinary (smart : s.Smart uses []) {line : Text} (ordinary : Ordinary line)
    (shape : mentionsSmartPointer line ∨ assignsNew line = false ∧ (splitAssignment? line).isSome)
    (tagged : mentionsSmartPointer line → ∀ u : Session, u.Smart uses [] →
      Action.smartPointer line u = .ok () t → t.Smart uses [])
    (untagged : mentionsSmartPointer line = false → ∀ u : Session, u.Smart uses [] →
      Action.assignment line u = .ok () t → t.Smart uses [])
    (ran : Action.statement line s = .ok () t) : t.Smart uses [] := by
  have done := Action.perform_of_statement (ordinary.classify smart.closed shape) ran
  have noted (kind : StatementKind) := smart.note (.running kind line.toName)
  cases inside : s.inMain with
  | false =>
    rw [inside] at done
    cases done
    exact noted _
  | true =>
    rw [inside] at done
    cases mentions : mentionsSmartPointer line with
    | true =>
      rw [mentions] at done
      exact tagged mentions _ (noted _) done
    | false =>
      rw [mentions] at done
      exact untagged mentions _ (noted _) done

/-- Popping a block keeps to smart pointers, whatever is noted. -/
theorem afterExit (smart : s.Smart uses []) {exit : Memory.ScopeExit} (left : s.memory.endScope? = some exit) :
    (s.afterExit exit).Smart uses [] := by
  obtain ⟨b, member, live, stack, _, rfl⟩ := Memory.endScope?_eq_some left
  have extends_ :=
    Memory.Extends.of_shrinks ((Memory.Shrinks.free s.memory b _).trans (.leaveScope s.memory b))
  obtain ⟨notes, popped⟩ := s.afterExit_eq (s.memory.leaveScope b)
  rw [popped]
  exact (smart.become (smart.owned.leaveScope member live stack) extends_).congr rfl rfl rfl

theorem popBlock (smart : s.Smart uses []) (popped : s.popBlock = some t) : t.Smart uses [] := by
  obtain ⟨exit, left, rfl⟩ := Option.map_eq_some_iff.mp popped
  exact smart.afterExit left

theorem leaveScope (smart : s.Smart uses []) : s.leaveScope.Smart uses [] := by
  unfold Session.leaveScope
  split
  · rename_i left
    exact (smart.afterExit left).note _
  · exact smart

theorem openScope (smart : s.Smart uses []) (done : Action.openScope s = .ok () t) :
    t.Smart uses [] := by
  cases done
  exact smart.congr rfl rfl rfl

theorem closeScope (smart : s.Smart uses []) (done : Action.closeScope s = .ok () t) :
    t.Smart uses [] := by
  unfold Action.closeScope at done
  rw [Action.get_bind] at done
  split at done
  · exact absurd done Action.fail_ne_ok
  · split at done
    · cases done
      split <;> exact smart.leaveScope.congr rfl rfl rfl
    · cases done
      exact smart.congr rfl rfl rfl

/-- A declaration of a smart pointer keeps to smart pointers. -/
theorem declaration (smart : s.Smart uses []) {line T x : Text} {init : Option Text}
    (ordinary : Ordinary line) (tagged : mentionsSmartPointer line)
    (reads : Action.smartPointer line = Action.declareSmart x (uses x).discipline T init)
    (allowed : ∀ value, init = some value → SmartValue uses (uses x) value)
    (ran : Action.statement line s = .ok () t) : t.Smart uses [] := by
  refine smart.ordinary ordinary (.inl tagged) (fun _ u held done => ?_) (fun untagged => ?_) ran
  · rw [reads] at done
    exact held.declareSmart allowed done
  · exact absurd tagged (Bool.eq_false_iff.mp untagged)

/-- Every statement of such a script keeps to smart pointers. -/
theorem statement (smart : s.Smart uses []) {line : Text} (allowed : SmartLine uses line)
    (ran : Action.statement line s = .ok () t) : t.Smart uses [] := by
  cases allowed with
  | @declare T x primitive usable =>
    have no_sign : '=' ∉ declared (uses x) T x :=
      not_mem_declared (uses x) primitive usable.named (by decide) (by decide)
    have splits : splitAssignment? (declared (uses x) T x ++ [';']) = none :=
      splitAssignment?_of_absent (by simpa using no_sign)
    have place := trimStatement_ended (declared_solid (T := T) (uses x) (bounded_of_isName usable.named))
    have reads : Action.smartPointer (declared (uses x) T x ++ [';']) =
        Action.declareSmart x (uses x).discipline T none := by
      have type := primitive.isTypeText
      rw [Action.smartPointer_declared [] none (uses x) type.anglesMatch usable.named nofun splits
        fun _ => by rw [place, List.append_nil], primitive.disciplineOf_smartType, type.trimmed]
      rfl
    refine smart.declaration (ordinary_declared (uses x) T x) ?_ reads nofun ran
    rw [mentionsSmartPointer_concat (by decide), mentionsSmartPointer_declared]
  | @init T x value primitive usable allowed =>
    have no_sign : '=' ∉ declared (uses x) T x :=
      not_mem_declared (uses x) primitive usable.named (by decide) (by decide)
    have splits :=
      splitAssignment?_assigned (declared_solid (uses x) (bounded_of_isName usable.named)) no_sign
        allowed.plain.solid
    have reads : Action.smartPointer (assigned (declared (uses x) T x) value) =
        Action.declareSmart x (uses x).discipline T (some value) := by
      have type := primitive.isTypeText
      rw [Action.smartPointer_declared [] (some value) (uses x) type.anglesMatch usable.named nofun
        (by rw [splits, List.append_nil]; rfl) nofun, primitive.disciplineOf_smartType, type.trimmed]
      rfl
    have ordinary : Ordinary (assigned (declared (uses x) T x) value) := by
      rw [assigned_declared]
      exact ordinary_declared (uses x) T _
    refine smart.declaration ordinary ?_ reads (fun given same => ?_) ran
    · rw [mentionsSmartPointer_assigned, mentionsSmartPointer_declared, Bool.true_or]
    · exact Option.some.inj same ▸ allowed
  | @assign x value usable allowed =>
    have plain := allowed.plain
    have splits : (splitAssignment? (assigned x value)).isSome := by
      rw [splitAssignment?_of_name usable.named plain.solid]
      rfl
    refine smart.ordinary (ordinary_assigned usable value)
      (.inr ⟨not_assignsNew_assigned usable.named plain, splits⟩)
      (fun _ u held done => ?_) (fun _ u held done => ?_) ran
    · rw [Action.smartPointer_assigned usable plain] at done
      exact held.assign usable allowed done
    · rw [Action.assignment_assigned usable plain.solid plain.single] at done
      exact held.assign usable allowed done
  | openScope =>
    have opens : s.classify ['{'] = .ok .scopeOpen := by
      rw [Session.classify, smart.closed]
      cases s.inMain <;> rfl
    exact (smart.note _).openScope (Action.perform_of_statement opens ran)
  | closeScope =>
    have closes : s.classify ['}'] = .ok .scopeClose := by
      rw [Session.classify, smart.closed]
      cases s.inMain <;> rfl
    exact (smart.note _).closeScope (Action.perform_of_statement closes ran)

theorem executeCodeLine (smart : s.Smart uses []) {line : CodeLine}
    (ran : Action.executeCodeLine line s = .ok () t)
    (keeps : ∀ u : Session, u.Smart uses [] → u.inMain = s.inMain →
      Action.statement line.code u = .ok () t → t.Smart uses []) : t.Smart uses [] := by
  have aged := smart.become smart.owned.tick (.of_shrinks ⟨Block.age, rfl, Block.becomes_age⟩)
  exact keeps { s with line := line.number, memory := s.memory.tick } (aged.congr rfl rfl rfl) rfl
    (Action.executeCodeLine_eq_ok ran)

/-- The header of `main` only enters it. -/
theorem enterMain (smart : s.Smart uses []) (outside : s.inMain = false)
    (ran : Action.statement "int main() \x7b".toList s = .ok () t) : t.Smart uses [] := by
  have enters : s.classify "int main() \x7b".toList = .ok .entryFunction := by
    have header : isEntryFunction "int main() \x7b".toList := by decide
    have no_class : isClassHeader "int main() \x7b".toList = false := by decide
    rw [Session.classify, smart.closed, outside, header, no_class]
    rfl
  have done := Action.perform_of_statement enters ran
  have opened : Action.perform "int main() \x7b".toList .entryFunction = (do
      modify fun s => { s with inMain := true, scopeDepth := 1 }
      Action.note .mainEntered : Action Unit) := by
    rw [Action.perform, Action.enterMain, if_neg (by decide)]
    rfl
  rw [opened] at done
  cases done
  exact smart.congr rfl rfl rfl

theorem popBlocks (smart : s.Smart uses []) (count : Nat) :
    (Session.popBlocks count s).Smart uses [] := by
  induction count generalizing s with
  | zero => exact smart
  | succ count ih =>
    unfold Session.popBlocks
    split
    · rename_i next popped
      exact ih (smart.popBlock popped)
    · exact smart

end Session.Smart

/-- A run that gets through has run its first line. -/
theorem Session.runSteps_cons_ok {α : Type} {observe : Step → α → ForInStep α} {line : CodeLine}
    {rest : List CodeLine} {seen : α} {s : Session}
    (always : ∀ step seen, ∃ next, observe step seen = .yield next)
    (ok : (runSteps observe (line :: rest) seen s).result = .ok ()) :
    ∃ next t, Action.executeCodeLine line s = .ok () t ∧
      runSteps observe (line :: rest) seen s = runSteps observe rest next t := by
  obtain ⟨next, yields⟩ := always { line, memory := s.memory } seen
  unfold runSteps at ok
  rw [yields] at ok
  cases ran : Action.executeCodeLine line s with
  | error e t =>
    rw [ran] at ok
    contradiction
  | ok _ t =>
    refine ⟨next, t, rfl, ?_⟩
    rw [runSteps, yields]
    dsimp only
    rw [ran]

namespace Session.Smart

variable {uses : Text → SmartKind} {s : Session}

/-- With nothing left on the stack and nothing raw on the heap, nothing is live. -/
theorem liveBlocks_eq_nil (smart : s.Smart uses []) (unwound : s.memory.endScope? = none) :
    s.memory.liveBlocks = [] := by
  rw [smart.owned.liveBlocks_eq_leakedBlocks unwound, Memory.leakedBlocks, List.filter_eq_nil_iff]
  intro b member leaked
  rw [Bool.and_eq_true, Bool.and_eq_true, decide_eq_true_eq] at leaked
  exact smart.noRaw b member (Block.isHeapOf_raw.mpr leaked.1.2)

/-- A script that is finished has no live block, since its owners took all blocks with them. -/
theorem finished (smart : s.Smart uses []) : s.popAll.finish.memory.liveBlocks = [] := by
  have unwound : s.popAll.memory.endScope? = none := popBlocks_unwound (Nat.le_refl _)
  have reported : s.popAll.finish.memory.blocks = s.popAll.memory.blocks :=
    Memory.reportLeaks_keeps Memory.blocks (fun _ _ _ _ => rfl) s.popAll.memory
  have empty := (smart.popBlocks _).liveBlocks_eq_nil unwound
  rwa [Memory.liveBlocks, reported]

/-- A stepwise run of such lines leaves no live block. -/
theorem runSteps (smart : s.Smart uses []) {α : Type} {observe : Step → α → ForInStep α}
    {lines : List CodeLine} {seen : α}
    (always : ∀ step seen, ∃ next, observe step seen = .yield next)
    (allowed : ∀ line ∈ lines, SmartLine uses line.code)
    (ok : (Session.runSteps observe lines seen s).result = .ok ()) :
    (Session.runSteps observe lines seen s).session.memory.liveBlocks = [] := by
  induction lines generalizing s seen with
  | nil => exact smart.finished
  | cons line rest ih =>
    obtain ⟨next, t, ran, later⟩ := runSteps_cons_ok always ok
    have kept : t.Smart uses [] := smart.executeCodeLine ran fun u held _ done =>
      held.statement (allowed line List.mem_cons_self) done
    rw [later] at ok ⊢
    exact ih kept (fun other member => allowed other (List.mem_cons_of_mem line member)) ok

end Session.Smart

/-- A script whose pointers all are smart ones, each name for one kind, leaves no live block if it
runs through. -/
theorem smart_scripts_never_leak {α : Type} (uses : Text → SmartKind) (script : Text)
    (body : List Text) (observe : Step → α → ForInStep α) (start : α)
    (lines : script.lines.map Text.trim = "int main() \x7b".toList :: body)
    (allowed : ∀ line ∈ body, SmartLine uses line)
    (always : ∀ step seen, ∃ next, observe step seen = .yield next)
    (ok : (({} : Session).executeStepwise script observe start).result = .ok ()) :
    (({} : Session).executeStepwise script observe start).session.memory.liveBlocks = [] := by
  have plain : ∀ line ∈ script.lines, line.trim ≠ [] ∧ '/' ∉ line.trim := by
    intro line member
    have trimmed : line.trim ∈ script.lines.map Text.trim := List.mem_map_of_mem member
    rw [lines] at trimmed
    rcases List.mem_cons.mp trimmed with first | later
    · rw [first]
      decide
    · exact (allowed _ later).plain
  have codes := codeLines_code plain
  rw [lines] at codes
  unfold Session.executeStepwise at ok ⊢
  cases split : codeLines script with
  | nil =>
    rw [split] at codes
    contradiction
  | cons line rest =>
    rw [split] at codes ok
    obtain ⟨first, others⟩ := List.cons.inj codes
    obtain ⟨next, t, ran, later⟩ := Session.runSteps_cons_ok always ok
    rw [later] at ok ⊢
    have entered : t.Smart uses [] :=
      Session.Smart.fresh.executeCodeLine ran fun u held outside done =>
      held.enterMain outside (first ▸ done)
    refine entered.runSteps always (fun other member => ?_) ok
    refine allowed other.code ?_
    rw [← others]
    exact List.mem_map_of_mem member

/-- Pointers that move, share, are given new blocks and leave an inner scope. -/
def scopedScript : Text :=
  ['\n'].intercalate (List.map String.toList ["int main() \x7b",
    "  std::unique_ptr<int> a = std::make_unique<int>();",
    "  std::unique_ptr<int> b = std::move(a);",
    "  b = std::make_unique<int>();",
    "  std::shared_ptr<char> p = std::make_shared<char>();",
    "  \x7b",
    "    std::shared_ptr<char> q = p;",
    "    q = std::make_shared<char>();",
    "  \x7d",
    "  p = nullptr;",
    "\x7d"])

/-- The run creates eight blocks, and none of them is left. -/
theorem smart_scripts_never_leak_of_scopes :
    ∃ run, ({} : Session).executeStepwise scopedScript (fun _ steps => .yield (steps + 1)) 0 = run ∧
      run.result = .ok () ∧ run.session.memory.blocks.length = 8 ∧
      run.session.memory.liveBlocks = [] := by
  let uses : Text → SmartKind :=
    fun name => if name = ['a'] ∨ name = ['b'] then .unique else .shared
  let int := "int".toList
  let char := "char".toList
  let body : List Text := [assigned (declared .unique int ['a']) (factoryCall .unique int),
    assigned (declared .unique int ['b']) (moveOf ['a']), assigned ['b'] (factoryCall .unique int),
    assigned (declared .shared char ['p']) (factoryCall .shared char), ['{'],
    assigned (declared .shared char ['q']) ['p'], assigned ['q'] (factoryCall .shared char), ['}'],
    assigned ['p'] "nullptr".toList, ['}']]
  have lines : (Text.lines scopedScript).map Text.trim = "int main() \x7b".toList :: body := by
    decide +kernel
  have a : IsVariable ['a'] := by decide
  have b : IsVariable ['b'] := by decide
  have p : IsVariable ['p'] := by decide
  have q : IsVariable ['q'] := by decide
  have int_word : IsPrimitiveWord int := by decide
  have char_word : IsPrimitiveWord char := by decide
  have allowed : ∀ line ∈ body, SmartLine uses line := by
    intro line member
    simp only [body, List.mem_cons, List.not_mem_nil, or_false] at member
    rcases member with rfl | rfl | rfl | rfl | rfl | rfl | rfl | rfl | rfl | rfl
    · exact @SmartLine.init uses int ['a'] _ int_word a (.make int_word)
    · exact @SmartLine.init uses int ['b'] _ int_word b (.move a rfl)
    · exact @SmartLine.assign uses ['b'] _ b (.make int_word)
    · exact @SmartLine.init uses char ['p'] _ char_word p (.make char_word)
    · exact .openScope
    · exact @SmartLine.init uses char ['q'] _ char_word q (.copy p rfl rfl)
    · exact @SmartLine.assign uses ['q'] _ q (.make char_word)
    · exact .closeScope
    · exact .assign p .null
    · exact .closeScope
  have ran :
      (({} : Session).executeStepwise scopedScript
        (fun _ steps => .yield (steps + 1)) 0).result = .ok () ∧
      (({} : Session).executeStepwise scopedScript
        (fun _ steps => .yield (steps + 1)) 0).session.memory.blocks.length = 8 := by
    decide +kernel
  have clean := smart_scripts_never_leak uses scopedScript body
    (fun _ steps => .yield (steps + 1)) 0 lines allowed
    (fun _ steps => ⟨steps + 1, rfl⟩) ran.1
  exact ⟨_, rfl, ran.1, ran.2, clean⟩

end MemoryTrace
