import MemoryTrace.Proofs.Memory.HeapRanges
import MemoryTrace.Proofs.Session.Classes
import MemoryTrace.Proofs.Session.Local

namespace MemoryTrace

open Script

/-- The size of the class is the sum of the sizes of its members, and a word can hold it. -/
structure ClassLayout.Exact (layout : ClassLayout) : Prop where
  size : layout.size = total Member.size layout.members
  fits : layout.size ≤ largestWord

theorem ClassLayout.Exact.addMembers {layout : ClassLayout} (exact : layout.Exact) {added : List Member}
    (fits : layout.size + total Member.size added ≤ largestWord) : (added.foldl addMember layout).Exact := by
  induction added generalizing layout with
  | nil => exact exact
  | cons first rest ih =>
    rw [total_cons] at fits
    have grown : (layout.addMember first).size = layout.size + first.size := saturate_of_le (by omega)
    refine ih ⟨?_, ?_⟩ ?_
    · rw [grown, exact.size, addMember, total_append, total_cons, total_nil, Nat.add_zero]
    · omega
    · omega

namespace Session

variable {s : Session}

/-- The sizes of all classes are exact, that of the open one too. -/
def Sized (s : Session) : Prop := ∀ name layout, s.classes.get? name = some layout → layout.Exact

theorem sized_fresh : ({} : Session).Sized := nofun

theorem Sized.congr {t : Session} (sized : s.Sized) (same : t.classes = s.classes) : t.Sized := by
  unfold Sized
  rw [same]
  exact sized

theorem Sized.set (sized : s.Sized) (name : String) {layout : ClassLayout} (exact : layout.Exact) :
    ({ s with classes := s.classes.set name layout } : Session).Sized := by
  intro other found known
  dsimp only at known
  by_cases same : other = name
  · rw [same, Table.get?_set_self] at known
    rwa [← Option.some.inj known]
  · rw [Table.get?_set_ne _ _ same] at known
    exact sized other found known

theorem Sized.modify (sized : s.Sized) {name : String} {f : ClassLayout → ClassLayout}
    (exact : ∀ layout, s.classes.get? name = some layout → (f layout).Exact) :
    ({ s with classes := s.classes.modify name f } : Session).Sized := by
  intro other found known
  rw [Table.get?_modify] at known
  split at known
  · rename_i same
    rw [same] at known
    obtain ⟨layout, before, rfl⟩ := Option.map_eq_some_iff.mp known
    exact exact layout before
  · exact sized other found known

end Session

namespace Action

variable {s t : Session} {e : Failure}

/-- A statement adds the members that it declares, if the class does not outgrow a word with them. The size that counts
is that of the class before. -/
theorem addMembers_eq (className : String) (statement : Text) (s : Session) :
    addMembers className statement s =
      match membersOf className (trimStatement statement) s with
      | .ok members _ =>
        if ((s.classes.get? className).map (·.size)).getD 0 + total Member.size members ≤ largestWord then
          .ok () { s with classes := s.classes.modify className (members.foldl ClassLayout.addMember ·) }
        else .error (.script { line := s.line, cause := .sizeOverflow className }) s
      | .error e _ => .error e s := by
  have unchanged : (membersOf className (trimStatement statement)).after s = s :=
    Keeps.membersOf (I := (· = s)) className (trimStatement statement) s rfl
  unfold addMembers
  simp only [bind, EStateM.bind]
  cases read : membersOf className (trimStatement statement) s with
  | ok members u =>
    rw [after_of_ok read] at unchanged
    subst unchanged
    dsimp only [get, getThe, MonadStateOf.get, EStateM.get]
    split <;> rfl
  | error e u =>
    rw [after_of_error read] at unchanged
    subst unchanged
    rfl

/-- A statement whose members are added had room for them. -/
theorem addMembers_eq_ok {className : String} {statement : Text} (added : addMembers className statement s = .ok () t) :
    ∃ members, ((s.classes.get? className).map (·.size)).getD 0 + total Member.size members ≤ largestWord ∧
      t = { s with classes := s.classes.modify className (members.foldl ClassLayout.addMember ·) } := by
  rw [addMembers_eq] at added
  split at added
  · rename_i members _ _
    split at added
    · rename_i fits
      exact ⟨members, fits, (EStateM.Result.ok.inj added).2.symm⟩
    · contradiction
  · contradiction

/-- A statement that cannot be added adds none of its members. -/
theorem addMembers_eq_error {className : String} {statement : Text} (failed : addMembers className statement s = .error e t) :
    t = s := by
  rw [addMembers_eq] at failed
  split at failed
  · split at failed
    · contradiction
    · exact (EStateM.Result.error.inj failed).2.symm
  · exact (EStateM.Result.error.inj failed).2.symm

/-- A statement adds its members all or none, and only where the size stays within a word. -/
theorem Keeps.sized_addMembers (className : String) (statement : Text) :
    Keeps Session.Sized (addMembers className statement) := by
  intro s sized
  cases ran : addMembers className statement s with
  | ok _ t =>
    rw [after_of_ok ran]
    obtain ⟨members, fits, rfl⟩ := addMembers_eq_ok ran
    refine sized.modify fun layout known => ?_
    rw [known] at fits
    exact (sized className layout known).addMembers fits
  | error e t =>
    rw [after_of_error ran, addMembers_eq_error ran]
    exact sized

theorem Keeps.sized_note (remark : Remark) : Keeps Session.Sized (note remark) := .modify fun _ sized => sized.congr rfl

/-- A new class has no members yet, and its size is exact. -/
theorem Keeps.sized_beginClass (line : Text) : Keeps Session.Sized (beginClass line) := by
  unfold beginClass
  generalize ((tokens line)[1]?.map leadingName).getD [] = name
  dsimp only
  split
  · exact .fail _
  · refine read fun s _ => ?_
    split
    · exact .fail _
    · refine .bind (.modify fun t sized => ?_) fun _ => .bind (sized_note _) fun _ => ?_
      · exact sized.set _ ⟨rfl, Nat.zero_le _⟩
      · split
        · exact .forM (sized_addMembers _)
        · exact .modify fun _ sized => sized.congr rfl

theorem Keeps.sized_noteSpecialMember (className : String) (line : Text) :
    Keeps Session.Sized (noteSpecialMember className line) := by
  refine .modify fun t sized => sized.modify fun layout known => ?_
  have exact := sized className layout known
  exact ⟨exact.size, exact.fits⟩

theorem Keeps.sized_classBody (line : Text) : Keeps Session.Sized (classBody line) := by
  intro s sized
  cases opened : s.openClass with
  | none =>
    rw [after_of_ok (classBody_of_closed opened line)]
    exact sized
  | some o =>
    obtain ⟨a, form, same⟩ := classBody_form opened line
    have become (c : Option OpenClass) : Keeps Session.Sized (modify fun s => { s with openClass := c }) :=
      .modify fun _ sized => sized.congr rfl
    have keeps : Keeps Session.Sized a := by
      cases form with
      | stands => exact become _
      | ends => exact .modify fun s sized => sized.congr (s.closeClass_classes _)
      | function => exact (become _).bind fun _ => sized_noteSpecialMember _ _
      | data => exact (become _).bind fun _ => sized_addMembers _ _
    rw [after, same]
    exact keeps s sized

theorem Keeps.sized_executeLine (line : Text) : Keeps Session.Sized (executeLine line) := by
  have congr (s t : Session) (classes : t.classes = s.classes) (_ : t.openClass = s.openClass) (sized : s.Sized) :
      t.Sized := sized.congr classes
  refine executeLine_of_classes congr (fun line kind => ?_) line
  by_cases header : kind = .classHeader
  · exact header ▸ sized_beginClass line
  · by_cases body : kind = .classBody
    · exact body ▸ sized_classBody line
    · exact perform_of_classes congr line header body

/-- Whatever a line inside a class is, only adding members can fail, and nothing has been added then. -/
theorem classBody_eq_error {o : OpenClass} (opened : s.openClass = some o) {line : Text}
    (failed : classBody line s = .error e t) : t.classes = s.classes := by
  obtain ⟨a, form, same⟩ := classBody_form opened line
  rw [same] at failed
  cases form with
  | stands | ends | function => contradiction
  | data =>
    rw [modify_bind] at failed
    rw [addMembers_eq_error failed]

end Action

/-- A size is a sum that has never saturated. -/
theorem Session.Reachable.sized {s : Session} (reach : s.Reachable) : s.Sized :=
  reach.holds_of_lines sized_fresh (fun _ sized _ _ _ _ _ => sized.congr rfl) Action.Keeps.sized_executeLine

/-- The size of a class is the sum of the sizes of its members, and a word can hold it, so that it never came to
saturation when one of these was added. And a line inside a class definition that fails has changed no class: none of
its members is added, whichever of them it is that cannot be. -/
theorem class_sizes_exact {s : Session} (reach : s.Reachable) :
    (∀ name layout, s.classes.get? name = some layout →
      layout.size = total Member.size layout.members ∧ layout.size ≤ largestWord ∧
      ∀ (before after : List Member) (member : Member), layout.members = before ++ member :: after →
        saturate (total Member.size before + member.size) = total Member.size before + member.size) ∧
    ∀ line e t, s.openClass.isSome → Action.executeLine line s = .error e t → t.classes = s.classes := by
  refine ⟨fun name layout known => ?_, fun line e t opened failed => ?_⟩
  · have sized := reach.sized name layout known
    have fits := sized.fits
    refine ⟨sized.size, fits, fun before after member split => saturate_of_le ?_⟩
    rw [sized.size, split, total_append, total_cons] at fits
    omega
  · obtain ⟨u, lastError, notes, ran, rfl⟩ := Action.executeLine_eq_error failed
    rw [Action.statement_of_open opened] at ran
    obtain ⟨o, opened⟩ := Option.isSome_iff_exists.mp opened
    have noted : (s.note (.running .classBody line.toName)).openClass = some o := opened
    have unchanged := Action.classBody_eq_error noted ran
    exact unchanged

/-- The second of three members is too large. The class keeps the two that it had, one of them of another class. -/
theorem class_sizes_exact_of_overflow :
    ∃ (s t : Session) (layout : ClassLayout), s.Reachable ∧ s.openClass.isSome ∧
      Action.executeLine "int x, big[9000000000000000000], y;".toList s =
        .error (.script { line := 4, cause := .sizeOverflow "big" }) t ∧
      t.classes.get? "B" = some layout ∧ layout.members.map (·.name) = ["pair", "next"] ∧
      layout.size = total Member.size layout.members ∧ layout.size ≤ largestWord := by
  obtain ⟨s, reach, opened, fails, ⟨layout, known, members⟩⟩ : ∃ s : Session, s.Reachable ∧ s.openClass.isSome ∧
      (Action.executeLine "int x, big[9000000000000000000], y;".toList).failure? s =
        some (.script { line := 4, cause := .sizeOverflow "big" }) ∧
      ∃ layout, s.classes.get? "B" = some layout ∧ layout.members.map (·.name) = ["pair", "next"] :=
    ⟨(Action.execute
      "struct A \x7b int x; long y[2]; \x7d;\nclass B \x7b\n  A pair[2];\n  B* next;\n".toList).after {},
      .script _ .fresh, by decide +kernel⟩
  obtain ⟨sizes, unchanged⟩ := class_sizes_exact reach
  have failed := Action.eq_error_of_failure? fails
  obtain ⟨size, fits, _⟩ := sizes "B" layout known
  refine ⟨s, _, layout, reach, opened, failed, ?_, members, size, fits⟩
  rw [unchanged _ _ _ opened failed]
  exact known

end MemoryTrace
