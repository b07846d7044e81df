import MemoryTrace.Proofs.Session.Acceptance
import MemoryTrace.Proofs.Session.Outcome
import MemoryTrace.Proofs.Session.SmartScript

namespace MemoryTrace

open Script Text

/-- The session has a new live pointer under a name. It is null. -/
structure Session.Declares (s t : Session) (name : Text) (d : Discipline) (id : BlockId) : Prop where
  fresh : s.memory.block? id = none
  named : t.named? name = some id
  held : t.memory.HasPointer d id
  null : t.target? id = none

namespace Action

variable {s : Session} {kind : SmartKind} {A x : Text} (angles : AnglesMatch A) (unassigned : '=' ∉ A) (named : isName x)

theorem bindPointer_declares (sound : s.memory.Sound) (name : Text) (d : Discipline) (pointee : Option ClassLayout) :
    ∃ t id, bindPointer name d pointee s = .ok id t ∧ s.Declares t name d id := by
  let made := s.memory.createPointer name.toName d pointee
  let t : Session := { s with memory := made.2, bindings := s.bindings.set name.toName made.1 }
  have bound : bindPointer name d pointee s = .ok s.memory.nextId t := rfl
  have gains := bindPointer_gains sound bound
  exact ⟨t, s.memory.nextId, bound, sound.block?_of_new le_rfl, Table.get?_set_self .., gains.held, gains.null⟩

include angles unassigned named

/-- The line is read as it is written. -/
theorem smartPointer_uninitialised : smartPointer (declared kind A x ++ [';']) =
    declareSmart x (disciplineOf (smartType kind A)) A.trim none := by
  have no_sign : '=' ∉ declared kind A x :=
    sign_not_mem_declared kind unassigned (not_mem_of_isName named (by decide))
  have splits : splitAssignment? (declared kind A x ++ [';']) = none :=
    splitAssignment?_of_absent (by simpa using no_sign)
  have place := trimStatement_ended (declared_solid (T := A) kind (bounded_of_isName named))
  rw [smartPointer_declared [] none kind angles named nofun splits fun _ => by rw [place, List.append_nil]]
  rfl

/-- Whatever the pointer is declared to own, it is a new one and owns nothing yet. Its discipline is told from all of
its type, the part in angle brackets included. -/
theorem executeLine_uninitialised (closed : s.openClass = none) (inside : s.inMain) (sound : s.memory.Sound) :
    ∃ t id, executeLine (declared kind A x ++ [';']) s = .ok () t ∧
      s.Declares t x (disciplineOf (smartType kind A)) id := by
  have tagged : mentionsSmartPointer (declared kind A x ++ [';']) := by
    rw [mentionsSmartPointer_concat (by decide), mentionsSmartPointer_declared]
  have taken : s.classify (declared kind A x ++ [';']) = .ok .smartPointer := by
    rw [(ordinary_declared kind A x).classify closed (.inl tagged), inside, tagged]
    rfl
  have ran := statement_of_classify taken
  let noted := s.note (.running .smartPointer (declared kind A x ++ [';']).toName)
  obtain ⟨t, id, bound, made⟩ :=
    bindPointer_declares (s := noted) sound x (disciplineOf (smartType kind A)) (s.class? (baseType A.trim))
  have done : declareSmart x (disciplineOf (smartType kind A)) A.trim none noted = .ok () t := by
    unfold declareSmart
    rw [get_bind]
    exact discard_of_ok bound
  refine ⟨t, id, ?_, made.fresh, made.named, made.held, made.null⟩
  rw [executeLine, ran, perform, smartPointer_uninitialised angles unassigned named, done]

end Action

/-- Inside `main` the declaration of a smart pointer gets through, and its name denotes a new pointer that is null. The
pointer is what its type is on the outside, but a shared pointer is unique if its type names a unique one inside. -/
theorem smart_declaration_binds {s : Session} (reach : s.Reachable) (inside : s.inMain) (closed : s.openClass = none)
    (kind : SmartKind) {A x : Text} (angles : AnglesMatch A) (unassigned : '=' ∉ A) (named : isName x) :
    ∃ t id, Action.executeLine (declared kind A x ++ [';']) s = .ok () t ∧
      s.Declares t x (if disciplineOf A = .unique then .unique else kind.discipline) id := by
  rw [← disciplineOf_smartType]
  exact Action.executeLine_uninitialised angles unassigned named closed inside reach.sound.memory

/-- A shared pointer that owns a pair of shared pointers. -/
theorem smart_declaration_binds_of_nested :
    ∃ s t id, s.Reachable ∧ s.inMain ∧ s.openClass = none ∧
      Action.executeLine "std::shared_ptr<std::pair<std::shared_ptr<A>, shared_ptr<B>>> p;".toList s = .ok () t ∧
      s.Declares t "p".toList .shared id := by
  obtain ⟨s, reach, inside, closed⟩ : ∃ s : Session, s.Reachable ∧ s.inMain ∧ s.openClass = none :=
    ⟨(Action.execute "int main() \x7b\n".toList).after {}, .script _ .fresh, by decide +kernel⟩
  obtain ⟨t, id, ran, declares⟩ := smart_declaration_binds reach inside closed .shared
    (A := "std::pair<std::shared_ptr<A>, shared_ptr<B>>".toList) (x := "p".toList) (by decide +kernel) (by decide)
    (by decide)
  exact ⟨s, t, id, reach, inside, closed, ran, declares⟩

/-- What a shared pointer is declared to own makes it unique. -/
theorem shared_owner_of_unique_is_unique :
    ¬ ∀ s : Session, s.Reachable → s.inMain → s.openClass = none → ∀ (kind : SmartKind) (A x : Text), A ≠ [] →
      AnglesMatch A → A.all (· ∉ ['=', ';', '{', '}', '(', ')']) → isName x →
        ∃ t id, Action.executeLine (declared kind A x ++ [';']) s = .ok () t ∧ s.Declares t x kind.discipline id := by
  intro always
  let line : Text := declared .shared "std::unique_ptr<int>".toList "p".toList ++ [';']
  obtain ⟨s, reach, inside, closed, unique⟩ : ∃ s : Session, s.Reachable ∧ s.inMain ∧ s.openClass = none ∧
      (((Action.executeLine line).after s).named? "p".toList).bind ((Action.executeLine line).after s).discipline? =
        some .unique :=
    ⟨(Action.execute "int main() \x7b\n".toList).after {}, .script _ .fresh, by decide +kernel⟩
  obtain ⟨t, id, (ran : Action.executeLine line s = .ok () t), declares⟩ :=
    always s reach inside closed .shared "std::unique_ptr<int>".toList "p".toList (by decide) (by decide +kernel)
      (by decide) (by decide)
  obtain ⟨b, p, held, shared⟩ := declares.held
  rw [Action.after_of_ok ran, declares.named, Option.bind_some, Session.discipline?_of_held held, shared] at unique
  exact absurd unique (by decide)

end MemoryTrace
