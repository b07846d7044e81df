import MemoryTrace.Proofs.Script.PointerLine
import MemoryTrace.Proofs.Session.Acceptance
import MemoryTrace.Proofs.Session.Names
import MemoryTrace.Proofs.Session.Outcome
import MemoryTrace.Proofs.Session.SmartScript

namespace MemoryTrace

open Script

/-- The session with a new null pointer under a name. -/
def Session.withPointer (s : Session) (T p : Text) : Session :=
  let made := s.memory.createPointer p.toName .raw (s.class? T)
  { s with memory := made.2, bindings := s.bindings.set p.toName made.1 }

theorem Session.withPointer_held {s : Session} (sound : s.memory.Sound) (T p : Text) :
    ∃ b q, (s.withPointer T p).memory.LivePointer s.memory.nextId b q := by
  have made : Action.bindPointer p .raw (s.class? T) s = .ok s.memory.nextId (s.withPointer T p) := rfl
  obtain ⟨b, q, held, _⟩ := (Action.bindPointer_gains sound made).held
  exact ⟨b, q, held⟩

namespace Action

variable {s t : Session} {T p e line : Text}

theorem declare_rawDeclarator (s : Session) (T p : Text) (init : Option Text) :
    declare (rawDeclarator T p init) s = .ok (some s.memory.nextId) (s.withPointer T p) := rfl

/-- The new pointer is live, and its name denotes it. -/
theorem assign_withPointer (named : isName p) (sound : s.memory.Sound) (same : t.silent = (s.withPointer T p).silent)
    (value : Text) : assign p value false t = storePointer s.memory.nextId p value t := by
  obtain ⟨b, q, held⟩ : ∃ b q, t.memory.LivePointer s.memory.nextId b q := by
    rw [Session.eq_of_silent same]
    exact Session.withPointer_held sound T p
  have known : t.named? p = some s.memory.nextId := by
    rw [Session.eq_of_silent same]
    exact Table.get?_set_self ..
  have found : lookup p t = .ok s.memory.nextId t := by
    rw [lookup_of_named known, held.found, Option.any_some, held.live, if_pos rfl]
  unfold assign
  rw [not_isIndirect_of_name named, named, Bool.or_self, if_neg (by decide), if_neg (by decide), bind_of_ok found,
    get_bind, Session.pointer?_of_held held]
  rfl

theorem declareOne_uninitialised (type : IsPointeeName T) (s : Session) (p : Text) :
    declareOne (rawDeclarator T p none) s = .ok () (s.withPointer T p) := by
  have typed : (rawDeclarator T p none).typeName ≠ "auto".toList := type.not_auto
  rw [declareOne, if_neg typed, bind_of_ok (declare_rawDeclarator s T p none)]
  rfl

/-- A pointer that is initialised is there before its value is stored. -/
theorem declareOne_initialised (type : IsPointeeName T) (sound : s.memory.Sound) (p e : Text) :
    declareOne (rawDeclarator T p (some e)) s = storePointer s.memory.nextId p e (s.withPointer T p) := by
  obtain ⟨b, q, held⟩ := Session.withPointer_held sound T p
  have typed : (rawDeclarator T p (some e)).typeName ≠ "auto".toList := type.not_auto
  have init : (rawDeclarator T p (some e)).init = some e := rfl
  rw [declareOne, if_neg typed, bind_of_ok (declare_rawDeclarator s T p (some e)), init]
  dsimp only
  rw [get_bind, Session.pointer?_of_held held]
  rfl

theorem assignment_of_single {d : Declarator} (reads : readDeclaration line = .ok [d]) :
    assignment line = declareOne d := by
  simp [assignment, declaration?, reads]

theorem declaration_of_single {d : Declarator} (reads : readDeclaration line = .ok [d]) :
    declaration line = declareOne d := by
  simp [declaration, declaration?, reads]

/-- The line declares a null pointer and does nothing else. -/
theorem executeLine_rawDeclared (closed : s.openClass = none) (inside : s.inMain) (type : IsPointeeName T)
    (named : isName p) (untagged : mentionsSmartPointer (rawDeclared T p) = false) :
    ∃ t, executeLine (rawDeclared T p ++ [';']) s = .ok () t ∧ t.silent = (s.withPointer T p).silent := by
  have ordinary : Ordinary (rawDeclared T p ++ [';']) := by simpa using ordinary_rawDeclared type p []
  have no_sign : splitAssignment? (rawDeclared T p ++ [';']) = none :=
    splitAssignment?_of_absent (by simpa using sign_not_mem_rawDeclared type named)
  have reads := readDeclaration_rawDeclared type named
  have taken : s.classify (rawDeclared T p ++ [';']) = .ok .declaration := by
    rw [ordinary.classify_inside closed inside, mentionsSmartPointer_concat (by decide), untagged, assignsNew, no_sign,
      declarationKind, reads]
    rfl
  have ran := statement_of_classify taken
  rw [perform, declaration_of_single reads, declareOne_uninitialised type] at ran
  refine ⟨(s.note (.running .declaration (rawDeclared T p ++ [';']).toName)).withPointer T p, ?_, rfl⟩
  rw [executeLine, ran]

/-- Of the two kinds that an assignment may be taken for, both do the same. Only the note tells them apart. -/
theorem statement_assigning (closed : s.openClass = none) (inside : s.inMain) (ordinary : Ordinary line)
    (untagged : mentionsSmartPointer line = false) (splits : (splitAssignment? line).isSome) :
    ∃ kind : StatementKind, statement line s = assignment line (s.note (.running kind line.toName)) := by
  obtain ⟨kind, taken, rfl | rfl⟩ := ordinary.classify_assigning closed inside untagged splits
  · exact ⟨_, statement_of_classify taken⟩
  · exact ⟨_, statement_of_classify taken⟩

section Assigned

variable (closed : s.openClass = none) (inside : s.inMain) (value : IsInitialiser e)

include closed inside value

/-- With a type in front, the line is read as a declaration. -/
theorem statement_rawAssigned (sound : s.memory.Sound) (type : IsPointeeName T) (named : isName p)
    (untagged : mentionsSmartPointer (assigned (rawDeclared T p) e) = false) :
    ∃ kind : StatementKind, statement (assigned (rawDeclared T p) e) s = storePointer s.memory.nextId p e
      ((s.note (.running kind (assigned (rawDeclared T p) e).toName)).withPointer T p) := by
  have ordinary : Ordinary (assigned (rawDeclared T p) e) := by
    simpa [assigned] using ordinary_rawDeclared type p (' ' :: '=' :: ' ' :: e)
  have splits : (splitAssignment? (assigned (rawDeclared T p) e)).isSome := by
    rw [splitAssignment?_assigned (rawDeclared_solid type named) (sign_not_mem_rawDeclared type named) value.solid]
    rfl
  obtain ⟨kind, ran⟩ := statement_assigning closed inside ordinary untagged splits
  refine ⟨kind, ?_⟩
  rw [ran, assignment_of_single (readDeclaration_rawAssigned type named value)]
  exact declareOne_initialised (s := s.note _) type sound p e

/-- Without a type in front, the line is no declaration. -/
theorem statement_nameAssigned (usable : IsVariable p) (untagged : mentionsSmartPointer e = false) :
    ∃ kind : StatementKind,
      statement (assigned p e) s = assign p e false (s.note (.running kind (assigned p e).toName)) := by
  have plain : mentionsSmartPointer (assigned p e) = false := by
    rw [mentionsSmartPointer_assigned, usable.untagged, untagged, Bool.or_self]
  have splits : (splitAssignment? (assigned p e)).isSome := by
    rw [splitAssignment?_of_name usable.named value.solid]
    rfl
  obtain ⟨kind, ran⟩ := statement_assigning closed inside (ordinary_assigned usable e) plain splits
  refine ⟨kind, ?_⟩
  rw [ran, assignment_assigned usable value.solid value.single]

end Assigned

end Action

/-- Inside `main` a raw pointer may be initialised where it is declared, or declared and then assigned to. The result is
the same, and so is the session, apart from its notes, whatever the initialiser means and whether it means anything. -/
theorem pointer_initialised_or_assigned {s : Session} (reach : s.Reachable) (inside : s.inMain)
    (closed : s.openClass = none) {T p e : Text} (type : IsPointeeName T) (named : isName p)
    (unreserved : ¬ reservedWords.any (·.toList = p)) (value : IsInitialiser e)
    (untagged : mentionsSmartPointer (assigned (rawDeclared T p) e) = false) :
    (Action.executeLine (assigned (rawDeclared T p) e)).outcome s =
      (do
        Action.executeLine (rawDeclared T p ++ [';'])
        Action.executeLine (assigned p e) : Action Unit).outcome s := by
  have sound := reach.sound.memory
  obtain ⟨_, first⟩ := Action.statement_rawAssigned closed inside value sound type named untagged
  rw [mentionsSmartPointer_assigned, Bool.or_eq_false_iff] at untagged
  obtain ⟨plain_place, plain_value⟩ := untagged
  have plain_name : mentionsSmartPointer p = false := by
    rw [mentionsSmartPointer_rawDeclared, Bool.or_eq_false_iff] at plain_place
    exact plain_place.2
  obtain ⟨t, declared, same⟩ := Action.executeLine_rawDeclared closed inside type named plain_place
  have still := Session.eq_of_silent same
  obtain ⟨_, second⟩ := Action.statement_nameAssigned (s := t) (by rw [still]; exact closed)
    (by rw [still]; exact inside) value ⟨named, unreserved, plain_name⟩ plain_value
  rw [Action.assign_withPointer (t := t.note _) named sound same] at second
  rw [Action.outcome_congr (Action.bind_of_ok declared _)]
  refine Action.outcome_executeLine ?_
  rw [Action.outcome_congr first, Action.outcome_congr second]
  exact (Action.Local.storePointer ..).outcome_eq (Action.Blind.storePointer _ _ _) same.symm

/-- The new pointer may even be pointed at itself, where an older one had its name. -/
theorem pointer_initialised_or_assigned_of_self :
    ∃ s : Session, s.Reachable ∧ s.inMain ∧ s.openClass = none ∧ (s.named? "p".toList).isSome ∧
      ((Action.executeLine "Point* p = &p;".toList).after s).target? s.memory.nextId = some s.memory.nextId ∧
      (Action.executeLine "Point* p = &p;".toList).outcome s =
        (do
          Action.executeLine "Point* p;".toList
          Action.executeLine "p = &p;".toList : Action Unit).outcome s := by
  obtain ⟨s, reach, inside, closed, known, aimed⟩ : ∃ s : Session, s.Reachable ∧ s.inMain ∧ s.openClass = none ∧
      (s.named? "p".toList).isSome ∧
      ((Action.executeLine "Point* p = &p;".toList).after s).target? s.memory.nextId = some s.memory.nextId :=
    ⟨(Action.execute "int main() \x7b\n  int p = 1;".toList).after {}, .script _ .fresh, by decide +kernel⟩
  have same := pointer_initialised_or_assigned (T := "Point".toList) (p := "p".toList) (e := "&p".toList) reach inside
    closed (by decide) (by decide) (by decide) (by decide) (by decide)
  exact ⟨s, reach, inside, closed, known, aimed, same⟩

end MemoryTrace
