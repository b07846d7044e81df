import MemoryTrace.Proofs.Script.AsciiBlanks
import MemoryTrace.Proofs.Script.AssignmentCut
import MemoryTrace.Proofs.Script.Cuts
import MemoryTrace.Proofs.Session.ClassSizes

namespace MemoryTrace

open Script Text

/-- A line is not taken for anything only if the reading of its declaration crashes. -/
theorem Session.classify_ne_error {line : Text} (reads : ∀ c, readDeclaration line ≠ .error (.crash c)) {s : Session}
    {c : Crash} : s.classify line ≠ .error c := by
  have tried {p : Prop} [Decidable p] (kind : StatementKind) {rest : Except Crash StatementKind}
      (other : rest ≠ .error c) : (if p then .ok kind else rest) ≠ .error c := by
    split
    · nofun
    · exact other
  unfold classify
  iterate 12 refine tried _ ?_
  split
  · nofun
  · nofun
  · rename_i crash failed
    exact absurd failed (reads crash)

namespace Action

variable {α β : Type}

/-- Wherever the action is started, it ends well or with an error of the script. -/
def Crashless (a : Action α) : Prop := ∀ s, FailsOnly a s fun e _ => e.cause? ≠ none

namespace Crashless

/-- What works on memory and names, and reads no declaration, does not crash. -/
theorem of_local {a : Action α} (inner : Local False a) : Crashless a := fun s =>
  (inner.failsOnly s).mono fun _ _ only crashes => only.2 crashes

theorem of_asks {a : Action α} (asks : Asks False a) : Crashless a := of_local (.of_asks asks)

protected theorem pure (x : α) : Crashless (Pure.pure x) := fun _ => .pure x

theorem fail (cause : Cause) : Crashless (Action.fail cause : Action α) := fun _ => .fail nofun

protected theorem modify (f : Session → Session) : Crashless (modify f) := fun _ => .modify f

/-- What does not crash in either part does not crash. -/
protected theorem bind {a : Action α} {f : α → Action β} (first : Crashless a) (rest : ∀ x, Crashless (f x)) :
    Crashless (a >>= f) := fun s => (first s).bind fun x t _ => rest x t

theorem read {f : Session → Action α} (each : ∀ s, Crashless (f s)) : Crashless (get >>= f) := fun s => .read (each s s)

protected theorem forM {list : List α} {f : α → Action PUnit} (each : ∀ x ∈ list, Crashless (f x)) :
    Crashless (list.forM f) := by
  induction list with
  | nil => exact .pure _
  | cons x rest ih =>
    rw [List.forall_mem_cons] at each
    exact each.1.bind fun _ => ih each.2

theorem addMembers (className : String) {statement : Text} (plain : statement.AsciiBlanks) :
    Crashless (addMembers className statement) := by
  have reads (c : Crash) : readDeclaration (trimStatement statement) ≠ .error (.crash c) :=
    readDeclaration_ne_crash (plain.mono (trimStatement_subset statement))
  refine (of_asks (.membersOf className (.inr reads))).bind fun members => .read fun s => ?_
  dsimp only
  split
  · exact .modify _
  · exact .fail _

end Crashless

/-- What stands between the braces has no characters but those of the line. -/
theorem braced?_subset {line members : Text} (found : braced? line = some members) : members ⊆ line := by
  unfold braced? at found
  split at found
  · cases found
  · rename_i opening inside cut
    refine List.Subset.trans (beforeLast?_subset found) fun c member => ?_
    exact List.dropWhile_subset (· ≠ '{') (cut ▸ List.mem_cons_of_mem opening member)

theorem withoutAccess_subset (line : Text) : withoutAccess line ⊆ line := by
  unfold withoutAccess
  split
  · rename_i member found
    obtain ⟨label, _, starts⟩ := List.exists_of_findSome?_eq_some found
    refine List.Subset.trans (trim_subset member) ?_
    rw [eq_append_of_isPrefixOf? starts]
    exact List.subset_append_right ..
  · exact List.Subset.refl _

namespace Crashless

variable {line : Text} (plain : line.AsciiBlanks)

include plain

theorem beginClass : Crashless (beginClass line) := by
  unfold Action.beginClass
  dsimp only
  split
  · exact .fail _
  · refine .read fun s => ?_
    split
    · exact .fail _
    · refine (Crashless.modify _).bind fun _ => (Crashless.modify _).bind fun _ => ?_
      split
      · rename_i members found
        refine .forM fun statement member => addMembers _ (plain.mono ?_)
        have piece := List.mem_of_mem_filter member
        exact List.Subset.trans (subset_of_mem_splitOnP _ members statement piece) (braced?_subset found)
      · exact .modify _

theorem classBody : Crashless (classBody line) := by
  refine .read fun s => ?_
  split
  · exact .pure _
  · dsimp only
    split
    · exact .modify _
    · split
      · exact .modify _
      · split
        · exact .modify _
        · split
          · exact (Crashless.modify _).bind fun _ => .modify _
          · split
            · exact (Crashless.modify _).bind fun _ => .modify _
            · exact (Crashless.modify _).bind fun _ => addMembers _ (plain.mono (withoutAccess_subset line))

theorem perform (kind : StatementKind) : Crashless (perform line kind) := by
  have closes : Crashless closeScope := by
    refine fun s => FailsOnly.closeScope.mono ?_
    rintro _ _ ⟨rfl, -⟩
    nofun
  have inner (isLocal : kind.isLocal) : Crashless (Action.perform line kind) :=
    of_local (.perform isLocal (.inr fun _ => readDeclaration_ne_crash plain))
  cases kind with
  | classHeader => exact beginClass plain
  | classBody => exact classBody plain
  | entryFunction =>
    change Crashless (enterMain line)
    unfold enterMain
    split
    · exact .modify _
    · exact (Crashless.modify _).bind fun _ => .modify _
  | scopeReenter => exact closes.bind fun _ => .modify _
  | scopeClose => exact closes
  | scopeOpen => exact .modify _
  | returning | outsideFunction | delete | declareWithNew | smartPointer | assignment | declaration | unrecognized =>
    exact inner rfl

/-- A statement does not crash, since no scan of it would have to cut a character in two. -/
theorem statement : Crashless (statement line) := by
  refine .read fun s => ?_
  split
  · exact (Crashless.modify _).bind fun _ => perform plain _
  · rename_i failed
    exact absurd failed (Session.classify_ne_error fun _ => readDeclaration_ne_crash plain)

theorem executeLine : Crashless (executeLine line) := by
  intro s e t failed
  obtain ⟨u, _, _, stated, _⟩ := executeLine_eq_error failed
  exact statement plain s e u stated

end Crashless

theorem Crashless.executeCodeLine {line : CodeLine} (plain : line.code.AsciiBlanks) :
    Crashless (executeCodeLine line) :=
  (Crashless.modify _).bind fun _ => executeLine plain

/-- A script without white space beyond ASCII does not crash. -/
theorem Crashless.execute {script : Text} (plain : script.AsciiBlanks) : Crashless (execute script) := by
  have lines (line : CodeLine) (member : line ∈ codeLines script) : Crashless (Action.executeCodeLine line) :=
    executeCodeLine (plain.mono (code_subset member))
  exact (Crashless.forM lines).bind fun _ => .modify _

/-- An action that is crashless does not crash. -/
theorem Crashless.ne_crash {a : Action α} (crashless : Crashless a) {s t : Session} {c : Crash} :
    a s ≠ .error (.crash c) t := fun crashed => crashless s _ t crashed rfl

end Action

namespace Session

/-- A stepwise run does not crash either, whoever observes it. -/
theorem runSteps_ne_crash {α : Type} (observe : Step → α → ForInStep α) {lines : List CodeLine}
    (plain : ∀ line ∈ lines, line.code.AsciiBlanks) (seen : α) (s : Session) (c : Crash) :
    (runSteps observe lines seen s).result ≠ .error (.crash c) := by
  induction lines generalizing seen s with
  | nil => nofun
  | cons line rest ih =>
    rw [List.forall_mem_cons] at plain
    unfold runSteps
    split
    · nofun
    · split
      · exact ih plain.2 _ _
      · rename_i e t failed
        rintro ⟨⟩
        exact (Action.Crashless.executeCodeLine plain.1).ne_crash failed

end Session

namespace Session

variable {s t : Session}

/-- The class that is open is called by a name. -/
def ClassNamed (s : Session) : Prop := ∀ o, s.openClass = some o → isName o.name.toList

/-- Which class is open is a matter of that alone. -/
theorem ClassNamed.congr (named : s.ClassNamed) (same : t.openClass = s.openClass) : t.ClassNamed := by
  unfold ClassNamed
  rw [same]
  exact named

end Session

namespace Action.Keeps

theorem named_addMembers (className : String) (statement : Text) :
    Keeps Session.ClassNamed (addMembers className statement) := by
  refine (Keeps.membersOf _ _).bind fun members => read fun s _ => ?_
  dsimp only
  split
  · exact .modify fun _ named => named.congr rfl
  · exact .fail _

theorem named_beginClass (line : Text) : Keeps Session.ClassNamed (beginClass line) := by
  have named : ((tokens line)[1]?.map leadingName).getD [] ≠ [] → isName (((tokens line)[1]?.map leadingName).getD []) := by
    cases (tokens line)[1]? with
    | none => exact fun empty => absurd rfl empty
    | some token => exact isName_leadingName
  unfold beginClass
  generalize ((tokens line)[1]?.map leadingName).getD [] = name at named ⊢
  dsimp only
  split
  · exact .fail _
  · rename_i nonempty
    refine read fun s _ => ?_
    split
    · exact .fail _
    · refine .bind (.modify fun _ named => named.congr rfl) fun _ => .bind (.modify fun _ named => named.congr rfl) fun _ => ?_
      split
      · exact .forM (named_addMembers _)
      · refine .modify fun t _ o opened => ?_
        obtain rfl := Option.some.inj opened
        rw [toList_toName]
        exact named (by simpa using nonempty)

theorem named_classBody (line : Text) : Keeps Session.ClassNamed (classBody line) := by
  intro s named
  cases opened : s.openClass with
  | none =>
    rw [after_of_ok (classBody_of_closed opened line)]
    exact named
  | some o =>
    obtain ⟨a, form, same⟩ := classBody_form opened line
    have become {c : OpenClass} (its : c.name = o.name) :
        Keeps Session.ClassNamed (modify fun s => { s with openClass := some c }) := by
      refine .modify fun t _ other is_open => ?_
      obtain rfl := Option.some.inj is_open
      rw [its]
      exact named o opened
    have keeps : Keeps Session.ClassNamed a := by
      cases form with
      | stands its => exact become its
      | ends =>
        refine .modify fun s _ o opened => ?_
        rw [s.closeClass_openClass] at opened
        contradiction
      | function its => exact (become its).bind fun _ => .modify fun _ named => named.congr rfl
      | data its => exact (become its).bind fun _ => named_addMembers _ _
    rw [after, same]
    exact keeps s named

theorem named_executeLine (line : Text) : Keeps Session.ClassNamed (executeLine line) := by
  have congr (s t : Session) (_ : t.classes = s.classes) (same : t.openClass = s.openClass) (named : s.ClassNamed) :
      t.ClassNamed := named.congr same
  refine executeLine_of_classes congr (fun line kind => ?_) line
  by_cases header : kind = .classHeader
  · exact header ▸ named_beginClass line
  · by_cases body : kind = .classBody
    · exact body ▸ named_classBody line
    · exact perform_of_classes congr line header body

theorem named_executeCodeLine (line : CodeLine) : Keeps Session.ClassNamed (executeCodeLine line) :=
  .bind (.modify fun _ named => named.congr rfl) fun _ => named_executeLine line.code

end Action.Keeps

/-- In every reachable session the open class is called by a name. -/
theorem Session.Reachable.classNamed {s : Session} (reach : s.Reachable) : s.ClassNamed :=
  reach.holds_of_lines nofun (fun _ named _ _ _ _ _ => named.congr rfl) Action.Keeps.named_executeLine

/-- The readers that cut the text at byte offsets cut it between two of its characters, whatever these are, and no
depth falls below zero. They read what the readers by characters read. A name that is looked for must be one, and
stars are cut off behind the right byte if the white space is ASCII. -/
structure Script.CutBetweenCharacters (text : Text) : Prop where
  comments : Bytewise.stripped? text = some (stripComments text)
  name : text.upTo? (Bytewise.nameEnd text) = some (leadingName text)
  behindName : text.from? (byteLength (leadingName text)) = some (afterName text)
  assignment : Bytewise.assignment? text = some (splitAssignment? text)
  pieces : Bytewise.pieces? text = some (topLevelPieces 0 text)
  template : Bytewise.template? text = some (splitTemplate? text)
  tag : ∀ argument after, splitTemplate? text = some (argument, after) → byteLength after ≤ byteLength text ∧
    text.upTo? (byteLength text - byteLength after) = some (text.take (text.length - after.length))
  baseType : Bytewise.baseType? text = some (baseType text)
  elementCount : Bytewise.elementCount? text = some (elementCount? text)
  members : Bytewise.braced? text = some (Action.braced? text)
  calls : ∀ name, isName name → Bytewise.calls? name text = some (callsName name text)
  stars : text.AsciiBlanks → cutStars text =
    .ok (text.takeWhile fun c => c = '*' || isBlank c, text.dropWhile fun c => c = '*' || isBlank c)

/-- Every text is cut between characters by all readers. -/
theorem Script.cutBetweenCharacters (text : Text) : CutBetweenCharacters text where
  comments := Bytewise.stripped?_eq text
  name := Bytewise.upTo?_nameEnd text
  behindName := Bytewise.from?_leadingName text
  assignment := Bytewise.assignment?_eq text
  pieces := Bytewise.pieces?_eq text
  template := Bytewise.template?_eq text
  tag _ _ := Bytewise.upTo?_template
  baseType := Bytewise.baseType?_eq text
  elementCount := Bytewise.elementCount?_eq text
  members := Bytewise.braced?_eq text
  calls _ named := Bytewise.calls?_eq named text
  stars := cutStars_eq

/-- A text with no white space beyond ASCII does not crash the interpreter, as one line or as a script, run at once or
step by step. All readers cut between characters. The name of a class is looked for in the lines that follow its header,
in those of this script as well, and it is a name whenever a line runs. -/
theorem plain_text_never_crashes {s : Session} (reach : s.Reachable) {text : Text} (plain : text.AsciiBlanks) :
    (∀ piece, CutBetweenCharacters piece) ∧
    (∀ i t o, ((codeLines text).take i).forM Action.executeCodeLine s = .ok () t → t.openClass = some o →
      isName o.name.toList) ∧
    (∀ c t, Action.executeLine text s ≠ .error (.crash c) t) ∧
    (∀ c t, Action.execute text s ≠ .error (.crash c) t) ∧
    ∀ (α : Type) (observe : Step → α → ForInStep α) (start : α) (c : Crash),
      (s.executeStepwise text observe start).result ≠ .error (.crash c) := by
  refine ⟨cutBetweenCharacters, fun i t o ran opened => ?_, fun c t => (Action.Crashless.executeLine plain).ne_crash,
    fun c t => (Action.Crashless.execute plain).ne_crash, fun α observe start c => ?_⟩
  · have keeps : Action.Keeps Session.ClassNamed (((codeLines text).take i).forM Action.executeCodeLine) :=
      .forM Action.Keeps.named_executeCodeLine
    have named := keeps s reach.classNamed
    rw [Action.after_of_ok ran] at named
    exact named o opened
  · exact Session.runSteps_ne_crash observe (fun line member => plain.mono (code_subset member)) start s c

/-- A class is open, and a line calls its name between characters of more bytes than one. -/
theorem plain_text_never_crashes_of_accents :
    ∃ (s : Session) (line : Text), s.Reachable ∧ s.openClass.map (·.name) = some "Box" ∧ line.AsciiBlanks ∧
      byteLength line ≠ line.length ∧ Bytewise.calls? "Box".toList line = some true ∧
      ∀ c t, Action.executeLine line s ≠ .error (.crash c) t := by
  obtain ⟨s, line, reach, opened, plain, longer, called⟩ : ∃ (s : Session) (line : Text), s.Reachable ∧
      s.openClass.map (·.name) = some "Box" ∧ line.AsciiBlanks ∧ byteLength line ≠ line.length ∧
      callsName "Box".toList line = true :=
    ⟨(Action.execute "struct Box \x7b".toList).after {}, "é Box(größe* ü = 1);".toList, .script _ .fresh,
      by decide +kernel⟩
  obtain ⟨cuts, named, runs, _⟩ := plain_text_never_crashes reach plain
  obtain ⟨o, is_open, its⟩ := Option.map_eq_some_iff.mp opened
  have box : isName "Box".toList := its ▸ named 0 s o rfl is_open
  exact ⟨s, line, reach, opened, plain, longer, called ▸ (cuts line).calls _ box, runs⟩

end MemoryTrace
