import MemoryTrace.Proofs.Script.ClassText
import MemoryTrace.Proofs.Session.ClassSizes

namespace MemoryTrace

open Script

theorem Table.modify_id {α : Type} (table : Table α) (name : String) : table.modify name (fun value => value) = table := by
  have same (entry : String × α) : (if entry.1 = name then (entry.1, entry.2) else entry) = entry := by
    split <;> rfl
  rw [modify, List.map_congr_left fun entry _ => same entry, List.map_id']

namespace Action

variable {α β : Type} {s t : Session}

/-- Both runs fail, or they get through with the same answer and leave the same classes. -/
inductive SameAnswer : EStateM.Result Failure Session α → EStateM.Result Failure Session α → Prop
  | ok (x : α) {s t : Session} (classes : t.classes = s.classes) : SameAnswer (.ok x s) (.ok x t)
  | error {e f : Failure} {s t : Session} : SameAnswer (.error e s) (.error f t)

/-- The action goes by the classes of the session, and by nothing else in it. -/
def ByClasses (a : Action α) : Prop := ∀ s t, t.classes = s.classes → SameAnswer (a s) (a t)

namespace ByClasses

protected theorem pure (x : α) : ByClasses (Pure.pure x) := fun _ _ same => .ok x same

theorem fail (cause : Cause) : ByClasses (Action.fail cause : Action α) := fun _ _ _ => .error

theorem crash (c : Crash) : ByClasses (throw (.crash c) : Action α) := fun _ _ _ => .error

protected theorem modify {f : Session → Session} (same : ∀ s t, t.classes = s.classes → (f t).classes = (f s).classes) :
    ByClasses (modify f) := fun s t classes => .ok () (same s t classes)

/-- What goes by the classes in each part goes by them. -/
protected theorem bind {a : Action α} {f : α → Action β} (first : ByClasses a) (rest : ∀ x, ByClasses (f x)) :
    ByClasses (a >>= f) := by
  intro s t same
  have answers := first s t same
  simp only [bind, EStateM.bind]
  generalize a s = left at answers ⊢
  generalize a t = right at answers ⊢
  cases answers with
  | @ok x u v classes => exact rest x u v classes
  | error => exact .error

/-- Reading the session may only look at its classes. -/
theorem read {f : Session → Action α} (same : ∀ s t, t.classes = s.classes → f t = f s) (each : ∀ s, ByClasses (f s)) :
    ByClasses (get >>= f) := by
  intro s t classes
  rw [get_bind, get_bind, same s t classes]
  exact each s s t classes

/-- What goes by the classes for each of a list goes by them. -/
protected theorem mapM {list : List α} {f : α → Action β} (each : ∀ x, ByClasses (f x)) : ByClasses (list.mapM f) := by
  induction list with
  | nil => exact .pure _
  | cons x rest ih =>
    rw [List.mapM_cons]
    exact (each x).bind fun _ => ih.bind fun _ => .pure _

theorem arraySize (name : String) (unit count : Nat) : ByClasses (arraySize name unit count) := by
  unfold Action.arraySize
  split
  · exact .pure _
  · exact .fail _

theorem declaration? (text : Text) : ByClasses (declaration? text) := by
  unfold Action.declaration?
  split
  · exact .pure _
  · exact .pure _
  · exact .crash _

theorem memberOf (className : String) (d : Declarator) : ByClasses (memberOf className d) := by
  have sized (typeName : String) (unit : Nat) : ByClasses (do
      let size ← Action.arraySize d.name.toName unit (d.arrayLength.getD 1)
      return ({ name := d.name.toName, typeName, size } : Member)) :=
    (arraySize _ _ _).bind fun _ => .pure _
  unfold Action.memberOf
  dsimp only
  split
  · exact (ByClasses.pure _).bind (sized _)
  · split
    · exact (ByClasses.pure _).bind (sized _)
    · split
      · exact .bind (.fail _) (sized _)
      · refine .read (fun s t same => by rw [Session.class?, Session.class?, same]) fun s => ?_
        split
        · exact (ByClasses.pure _).bind (sized _)
        · exact .bind (.fail _) (sized _)

theorem membersOf (className : String) (text : Text) : ByClasses (membersOf className text) := by
  unfold Action.membersOf
  split
  · exact .pure _
  · refine (declaration? _).bind fun declared => ?_
    split
    · exact .mapM (memberOf className)
    · exact .pure _

theorem addMembers (className : String) (statement : Text) : ByClasses (addMembers className statement) := by
  refine (membersOf _ _).bind fun members => .read (fun s t same => by rw [same]) fun s => ?_
  dsimp only
  split
  · exact .modify fun s t same => by rw [same]
  · exact .fail _

end ByClasses

/-- Blanks and semicolons around a statement make no difference to what it adds. -/
theorem addMembers_congr (className : String) {first second : Text} (same : trimStatement first = trimStatement second) :
    addMembers className first = addMembers className second := by
  unfold addMembers
  rw [same]

/-- A blank statement adds nothing. -/
theorem addMembers_blank (sized : s.Sized) (className : String) {statement : Text} (blank : trimStatement statement = []) :
    ∃ t, addMembers className statement s = .ok () t ∧ t.classes = s.classes ∧ t.openClass = s.openClass := by
  have bare : stripQualifiers [] = [] := by
    rw [stripQualifiers]
    split
    · contradiction
    · rfl
  have unread : readDeclaration [] = .error .unreadable := by
    have trimmed : trimStatement [] = [] := rfl
    rw [readDeclaration, trimmed, bare]
    rfl
  have none_read : declaration? [] = pure none := by rw [declaration?, unread]
  have nothing : membersOf className [] s = .ok [] s := by
    have ordinary : mentionsSmartPointer [] = false := rfl
    rw [membersOf, ordinary, none_read]
    rfl
  have room : ((s.classes.get? className).map (·.size)).getD 0 ≤ largestWord := by
    cases known : s.classes.get? className with
    | none => exact Nat.zero_le _
    | some layout => exact (sized className layout known).fits
  have added := addMembers_eq className statement s
  rw [blank, nothing] at added
  dsimp only at added
  rw [total_nil, Nat.add_zero, if_pos room] at added
  exact ⟨_, added, Table.modify_id s.classes className, rfl⟩

/-- Between two lines a script goes on to another number and lets time pass. A line on its own does neither. -/
def RunsLines (run : β → Action Unit) (code : β → Text) : Prop :=
  ∀ b s, ∃ memory number, run b s = executeLine (code b) { s with memory, line := number }

theorem runsLines_executeLine : RunsLines executeLine id := fun _ s => ⟨s.memory, s.line, rfl⟩

theorem runsLines_executeCodeLine : RunsLines executeCodeLine CodeLine.code := fun line s =>
  ⟨s.memory.tick, line.number, rfl⟩

/-- Whether a line fails is up to its statement. -/
theorem executeLine_fails {line : Text} {e : Failure} (failed : statement line s = .error e t) :
    ∃ f u, executeLine line s = .error f u := by
  unfold executeLine
  rw [failed]
  cases e with
  | script => exact ⟨_, _, rfl⟩
  | crash => exact ⟨_, _, rfl⟩

theorem executeLine_of_statement {line : Text} (ran : statement line s = .ok () t) : executeLine line s = .ok () t := by
  unfold executeLine
  rw [ran]

/-- Of a data member the class takes notice as a one-line class would. -/
theorem classBody_data {name : String} {m : Text} (opened : s.openClass = some { name }) (single : IsStatement m)
    (data : isData m) : classBody (m ++ [';']) s = addMembers name (m ++ [';']) s := by
  have unlabelled := withoutAccess_of_isData data
  have nonempty : (m ++ [';']).isEmpty = false := by simp
  have no_brace : m ++ [';'] ≠ ['{'] := by
    intro same
    have last := congrArg List.getLast? same
    rw [List.getLast?_concat] at last
    contradiction
  have stays : (m ++ [';']).head? ≠ some '}' := by
    intro first
    rcases List.mem_append.mp (List.mem_of_head? first) with inside | end_mark
    · exact (single '}' inside).2.2 rfl
    · contradiction
  have no_call : (m ++ [';']).contains '(' = false := by
    have outside := (Bool.and_eq_true_iff.mp data).1
    simpa using outside
  have idle : ({ s with openClass := some { name } } : Session) = s := by rw [← opened]
  unfold classBody
  rw [get_bind, opened]
  dsimp only
  rw [unlabelled, nonempty, no_call, if_neg stays]
  simp only [Nat.lt_irrefl, Bool.false_and, Bool.false_eq_true, no_brace, decide_false, Bool.or_self, if_false, gt_iff_lt]
  rw [modify_bind, idle]

theorem classBody_classEnd {name : String} (opened : s.openClass = some { name }) :
    classBody classEnd s = .ok () (s.closeClass name) := by
  unfold classBody
  rw [get_bind, opened]
  rfl

/-- The session in which a class has just been registered. -/
def registered (s : Session) (name : String) : Session :=
  ({ s with classes := s.classes.set name { name } }).note (.classOpened name)

/-- A class header registers the class, and adds the members that stand in braces behind it. -/
theorem statement_classHeader (closed : s.openClass = none) {name : Text} (named : isName name)
    (fresh : s.class? name = none) (rest : Text) :
    statement (classHeader name ++ rest) s =
      (match Text.beforeLast? '}' rest with
        | some members =>
          ((members.splitOnP (· = ';')).filter fun member => !(Text.trim member).isEmpty).forM (addMembers name.toName)
        | none => modify fun s => { s with openClass := some { name := name.toName } } : Action Unit)
      (registered (s.note (.running .classHeader (classHeader name ++ rest).toName)) name.toName) := by
  have header : s.classify (classHeader name ++ rest) = .ok .classHeader := by
    rw [Session.classify, closed, isClassHeader_classHeader named]
    rfl
  have called : (((tokens (classHeader name ++ rest))[1]?).map leadingName).getD [] = name := by
    rw [tokens_classHeader named]
    exact leadingName_self named
  have nonempty : name.isEmpty = false := by simpa using ne_nil_of_isName named
  unfold statement
  rw [get_bind, header]
  change beginClass _ (s.note _) = _
  have unknown : ((s.note (.running .classHeader (classHeader name ++ rest).toName)).class? name).isSome = false := by
    rw [← Option.not_isSome_iff_eq_none, Bool.not_eq_true] at fresh
    exact fresh
  unfold beginClass
  rw [called, nonempty, braced?_classHeader named]
  simp only [Bool.false_eq_true, if_false]
  rw [get_bind, unknown]
  rfl

/-- Both runs fail, or they get through, leave the same classes, and have none open. -/
inductive DefinesAlike : EStateM.Result Failure Session Unit → EStateM.Result Failure Session Unit → Prop
  | defined {s t : Session} (classes : t.classes = s.classes) (first : s.openClass = none) (second : t.openClass = none) :
      DefinesAlike (.ok () s) (.ok () t)
  | failed {e f : Failure} {s t : Session} : DefinesAlike (.error e s) (.error f t)

/-- The lines are the members as statements of their own, whatever blanks stand before them. -/
def Spells (code : β → Text) (members : List Text) (lines : List β) : Prop :=
  List.Forall₂ (fun m b => ∃ spelled, code b = spelled ++ [';'] ∧ spelled.trim = m.trim ∧
    IsStatement spelled ∧ isData spelled) members lines

section Lines

variable {run : β → Action Unit} {code : β → Text} (runs : RunsLines run code) {name : String}

include runs

/-- A line inside a class comes to what it does to the class. -/
theorem run_of_open {b : β} (opened : t.openClass.isSome) :
    ∃ u, u.classes = t.classes ∧ u.openClass = t.openClass ∧
      (∀ v, classBody (code b) u = .ok () v → run b t = .ok () v) ∧
      ∀ e v, classBody (code b) u = .error e v → ∃ f w, run b t = .error f w := by
  obtain ⟨memory, number, same⟩ := runs b t
  have still : ({ t with memory, line := number } : Session).openClass.isSome := opened
  have ran := statement_of_open still (code b)
  refine ⟨({ t with memory, line := number } : Session).note (.running .classBody (code b).toName), rfl, rfl,
    fun v done => ?_, fun e v failed => ?_⟩
  · exact same.trans (executeLine_of_statement (ran.trans done))
  · rw [same]
    exact executeLine_fails (ran.trans failed)

/-- The last line leaves the classes as they are, and none open. -/
theorem run_classEnd {b : β} (opened : t.openClass = some { name }) (ends : code b = classEnd) :
    ∃ u, run b t = .ok () u ∧ u.classes = t.classes ∧ u.openClass = none := by
  obtain ⟨u, classes, still, through, _⟩ := run_of_open runs (b := b) (Option.isSome_of_eq_some opened)
  rw [ends, classBody_classEnd (still.trans opened)] at through
  exact ⟨_, through _ rfl, (u.closeClass_classes name).trans classes, u.closeClass_openClass name⟩

theorem run_member {b : β} {m : Text} (opened : t.openClass = some { name }) (spelled : code b = m ++ [';'])
    (single : IsStatement m) (data : isData m) :
    ∃ u, u.classes = t.classes ∧ u.openClass = t.openClass ∧
      (∀ v, addMembers name (m ++ [';']) u = .ok () v → run b t = .ok () v) ∧
      ∀ e v, addMembers name (m ++ [';']) u = .error e v → ∃ f w, run b t = .error f w := by
  obtain ⟨u, classes, still, outcome⟩ := run_of_open runs (b := b) (Option.isSome_of_eq_some opened)
  rw [spelled, classBody_data (still.trans opened) single data] at outcome
  exact ⟨u, classes, still, outcome⟩

/-- Members add the same to a class in one line and in lines of their own. A blank member is skipped in one line and
adds nothing on its own. -/
theorem members_alike {members : List Text} {lines : List β} {last : β} (single : ∀ m ∈ members, IsStatement m)
    (spelled : Spells code members lines) (ends : code last = classEnd) (same : t.classes = s.classes)
    (closed : s.openClass = none) (opened : t.openClass = some { name }) (sized : t.Sized) :
    DefinesAlike
      (((members.map (' ' :: ·)).filter fun member => !(Text.trim member).isEmpty).forM (addMembers name) s)
      ((lines ++ [last]).forM run t) := by
  induction spelled generalizing s t with
  | nil =>
    obtain ⟨u, closes, classes, after⟩ := run_classEnd runs opened ends
    rw [List.nil_append, Session.forM_cons_eq, closes]
    exact .defined (classes.trans same) closed after
  | @cons m b members lines first rest ih =>
    rw [List.forall_mem_cons] at single
    obtain ⟨spelled, code_eq, trimmed, single', data⟩ := first
    obtain ⟨u, classes, still, through, fails⟩ := run_member runs opened code_eq single' data
    have piece : Text.trim (' ' :: m) = m.trim := Text.trim_blank_cons (by decide) m
    have statement : trimStatement (spelled ++ [';']) = m.trim :=
      (trimStatement_concat single'.not_mem).trans trimmed
    rw [List.cons_append, Session.forM_cons_eq, List.map_cons, List.filter_cons, piece]
    by_cases blank : m.trim = []
    · obtain ⟨v, added, after, kept⟩ := addMembers_blank (sized.congr classes) name (statement.trans blank)
      rw [through v added, blank]
      have next := after.trans classes
      exact ih single.2 (next.trans same) closed (kept.trans (still.trans opened)) (sized.congr next)
    · have solid : (!(m.trim).isEmpty) = true := by simpa using blank
      have absent : ';' ∉ ' ' :: m := by simpa using single.1.not_mem
      have alike : addMembers name (' ' :: m) = addMembers name (spelled ++ [';']) :=
        addMembers_congr name (((trimStatement_of_absent absent).trans piece).trans statement.symm)
      rw [if_pos solid, Session.forM_cons_eq, alike]
      have answers := ByClasses.addMembers name (spelled ++ [';']) s u (classes.trans same)
      cases left : addMembers name (spelled ++ [';']) s with
      | error e v =>
        cases right : addMembers name (spelled ++ [';']) u with
        | error f w =>
          obtain ⟨f, w, failed⟩ := fails f w right
          rw [failed]
          exact .failed
        | ok _ w =>
          rw [left, right] at answers
          cases answers
      | ok _ v =>
        cases right : addMembers name (spelled ++ [';']) u with
        | error f w =>
          rw [left, right] at answers
          cases answers
        | ok _ w =>
          rw [left, right] at answers
          obtain ⟨_, after⟩ := answers
          have grown := Keeps.sized_addMembers name (spelled ++ [';']) u (sized.congr classes)
          rw [after_of_ok right] at grown
          obtain ⟨_, _, rfl⟩ := addMembers_eq_ok left
          obtain ⟨_, _, rfl⟩ := addMembers_eq_ok right
          rw [through _ right]
          exact ih single.2 after closed (still.trans opened) grown

/-- A class on one line registers the class and adds its members, the blank ones left out. -/
theorem run_classLine {b : β} {name : Text} {members : List Text} (closed : s.openClass = none) (named : isName name)
    (fresh : s.class? name = none) (single : ∀ m ∈ members, IsStatement m) (spelled : code b = classLine name members) :
    ∃ u, u.classes = s.classes.set name.toName { name := name.toName } ∧ u.openClass = none ∧
      (∀ v, ((members.map (' ' :: ·)).filter fun member => !(Text.trim member).isEmpty).forM
        (addMembers name.toName) u = .ok () v → run b s = .ok () v) ∧
      ∀ e v, ((members.map (' ' :: ·)).filter fun member => !(Text.trim member).isEmpty).forM
        (addMembers name.toName) u = .error e v → ∃ f w, run b s = .error f w := by
  obtain ⟨memory, number, same⟩ := runs b s
  have still : ({ s with memory, line := number } : Session).openClass = none := closed
  have unknown : ({ s with memory, line := number } : Session).class? name = none := fresh
  have whole : members.flatMap (fun m => ' ' :: (m ++ [';'])) ++ ' ' :: classEnd =
      (members.flatMap (fun m => ' ' :: (m ++ [';'])) ++ [' ']) ++ classEnd := by
    rw [List.append_assoc, List.singleton_append]
  have blank : ([[' ']] : List Text).filter (fun member => !(Text.trim member).isEmpty) = [] := by decide
  have ran := statement_classHeader still named unknown (members.flatMap (fun m => ' ' :: (m ++ [';'])) ++ ' ' :: classEnd)
  rw [whole, beforeLast?_classEnd, ← whole, ← classLine] at ran
  dsimp only at ran
  rw [splitOnP_members single, List.filter_append, blank, List.append_nil] at ran
  rw [spelled] at same
  refine ⟨_, ?_, ?_, fun v added => same.trans (executeLine_of_statement (ran.trans added)), fun e v failed => ?_⟩
  · rfl
  · exact closed
  · rw [same]
    exact executeLine_fails (ran.trans failed)

/-- A header on its own registers the class and leaves it open. -/
theorem run_classHeader {b : β} {name : Text} (closed : s.openClass = none) (named : isName name)
    (fresh : s.class? name = none) (spelled : code b = classHeader name) :
    ∃ u, run b s = .ok () u ∧ u.classes = s.classes.set name.toName { name := name.toName } ∧
      u.openClass = some { name := name.toName } := by
  obtain ⟨memory, number, same⟩ := runs b s
  have still : ({ s with memory, line := number } : Session).openClass = none := closed
  have unknown : ({ s with memory, line := number } : Session).class? name = none := fresh
  have ran := statement_classHeader still named unknown []
  rw [List.append_nil] at ran
  rw [spelled] at same
  exact ⟨_, same.trans (executeLine_of_statement ran), rfl, rfl⟩

/-- A class on one line and the same class on several lines add the same members. -/
theorem classes_alike {name : Text} {members : List Text} {lines : List β} {one first last : β} (sized : s.Sized)
    (closed : s.openClass = none) (named : isName name) (fresh : s.class? name = none)
    (single : ∀ m ∈ members, IsStatement m) (oneLine : code one = classLine name members)
    (header : code first = classHeader name) (spelled : Spells code members lines) (ends : code last = classEnd) :
    DefinesAlike (run one s) ((first :: (lines ++ [last])).forM run s) := by
  obtain ⟨u, classes, still, through, fails⟩ := run_classLine runs closed named fresh single oneLine
  obtain ⟨v, opens, registered, opened⟩ := run_classHeader runs closed named fresh header
  have empty : v.Sized := (sized.set name.toName ⟨rfl, Nat.zero_le _⟩).congr registered
  have alike := members_alike runs single spelled ends (registered.trans classes.symm) still opened empty
  rw [Session.forM_cons_eq, opens]
  dsimp only
  cases added : ((members.map (' ' :: ·)).filter fun member => !(Text.trim member).isEmpty).forM
      (addMembers name.toName) u with
  | ok _ w =>
    rw [added] at alike
    rwa [through w added]
  | error e w =>
    obtain ⟨f, x, failed⟩ := fails e w added
    rw [added] at alike
    rw [failed]
    generalize (lines ++ [last]).forM run v = result at alike ⊢
    cases alike with
    | failed => exact .failed

end Lines

end Action

open MemoryTrace.Action (DefinesAlike executeLine executeCodeLine Spells)

theorem spells_of_map {β : Type} {code : β → Text} {members : List Text} {lines : List β} {f : Text → Text}
    (each : ∀ m ∈ members, ∃ spelled, f m = spelled ++ [';'] ∧ spelled.trim = m.trim ∧ IsStatement spelled ∧
      isData spelled) (same : lines.map code = members.map f) : Spells code members lines := by
  induction members generalizing lines with
  | nil =>
    rw [List.map_eq_nil_iff.mp same]
    exact .nil
  | cons m rest ih =>
    obtain ⟨b, others, rfl, first, later⟩ := List.map_eq_cons_iff.mp same
    rw [List.forall_mem_cons] at each
    exact .cons (first ▸ each.1) (ih each.2 later)

/-- A class on one line and the same class on several lines, with members that are data and have no access specifier in
front. Both definitions fail, or they leave the same classes and none of them open. That is so line by line, and so it
is in a script, whatever blanks, comments and numbers its lines have. -/
theorem one_line_class_agrees {s : Session} (reach : s.Reachable) (closed : s.openClass = none) {name : Text}
    (named : isName name) (fresh : s.class? name = none) {members : List Text}
    (single : ∀ m ∈ members, IsStatement m) (data : ∀ m ∈ members, isData m) :
    DefinesAlike (executeLine (classLine name members) s) ((classLines name members).forM executeLine s) ∧
      ∀ (one : CodeLine) (many : List CodeLine), one.code = classLine name members →
        many.map (·.code) = (classLines name members).map Text.trim →
          DefinesAlike (executeCodeLine one s) (many.forM executeCodeLine s) := by
  refine ⟨?_, fun one many oneLine codes => ?_⟩
  · have spelled : Spells id members (members.map (· ++ [';'])) :=
      spells_of_map (fun m member => ⟨m, rfl, rfl, single m member, data m member⟩) (List.map_id _)
    exact Action.classes_alike Action.runsLines_executeLine reach.sized closed named fresh single rfl rfl spelled rfl
  · rw [classLines, List.map_cons, List.map_append, List.map_map] at codes
    obtain ⟨first, rest, rfl, header, inside⟩ := List.map_eq_cons_iff.mp codes
    obtain ⟨lines, ends, rfl, statements, closing⟩ := List.map_eq_append_iff.mp inside
    obtain ⟨last, none_left, rfl, ending, nothing⟩ := List.map_eq_cons_iff.mp closing
    rw [List.map_eq_nil_iff.mp nothing]
    rw [trim_classHeader] at header
    refine Action.classes_alike Action.runsLines_executeCodeLine reach.sized closed named fresh single oneLine header
      (spells_of_map (fun m member => ⟨m.trimStart, ?_, ?_, ?_, ?_⟩) statements) ending
    · exact trim_concat m
    · rw [Text.trim, Text.trimStart_trimStart, ← Text.trim]
    · exact fun c inside => single m member c ((List.dropWhile_sublist _).subset inside)
    · exact isData_trimStart (data m member)

/-- Members of several kinds, one of them blank and one of another class. -/
theorem one_line_class_agrees_of_nested :
    ∃ (s t u : Session) (members : List Text), s.Reachable ∧ members.length = 4 ∧
      executeLine (classLine "B".toList members) s = .ok () t ∧
      (classLines "B".toList members).forM executeLine s = .ok () u ∧ u.classes = t.classes ∧
      (t.class? "B".toList).map (·.members.map (·.name)) = some ["x", "p", "pair", "own"] := by
  obtain ⟨s, members, reach, closed, fresh, count, single, data, through, names⟩ : ∃ (s : Session) (members : List Text),
      s.Reachable ∧ s.openClass = none ∧ s.class? "B".toList = none ∧ members.length = 4 ∧
      (∀ m ∈ members, IsStatement m) ∧ (∀ m ∈ members, isData m) ∧
      (executeLine (classLine "B".toList members)).run' s = some () ∧
      (((executeLine (classLine "B".toList members)).after s).class? "B".toList).map (·.members.map (·.name)) =
        some ["x", "p", "pair", "own"] :=
    ⟨(Action.execute "struct A \x7b int x; long y; \x7d;\n".toList).after {},
      ["int x, *p", "A pair[2]", " ", "std::unique_ptr<A> own"].map (·.toList), .script _ .fresh, by decide +kernel⟩
  have alike := (one_line_class_agrees reach closed (by decide) fresh single data).1
  have ran := Action.eq_ok_of_run' through
  rw [ran] at alike
  cases later : (classLines "B".toList members).forM executeLine s with
  | error e u =>
    rw [later] at alike
    contradiction
  | ok _ u =>
    rw [later] at alike
    obtain ⟨classes, _, _⟩ := alike
    exact ⟨s, _, u, members, reach, count, ran, later, classes, names⟩

/-- An access specifier hides its member on one line, and on a line of its own it does not. -/
theorem one_line_class_skips_labelled_member :
    ¬ ∀ s : Session, s.Reachable → s.openClass = none → ∀ name : Text, isName name → s.class? name = none →
      ∀ members : List Text, members ≠ [] → (∀ m ∈ members, IsStatement m) →
        DefinesAlike (executeLine (classLine name members) s) ((classLines name members).forM executeLine s) := by
  intro always
  have alike := always {} .fresh rfl "N".toList (by decide) rfl ["public: int x".toList] (by decide) (by decide +kernel)
  have first : (executeLine (classLine "N".toList ["public: int x".toList])).run' {} = some () := by decide +kernel
  have second : ((classLines "N".toList ["public: int x".toList]).forM executeLine).run' {} = some () := by decide +kernel
  rw [Action.eq_ok_of_run' first, Action.eq_ok_of_run' second] at alike
  cases alike with
  | defined classes => exact absurd classes (by decide +kernel)

end MemoryTrace
