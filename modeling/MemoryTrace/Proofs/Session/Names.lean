import Mathlib.Order.Bounds.Basic
import MemoryTrace.Proofs.Session.Permanence

namespace MemoryTrace

open Script

namespace Memory

variable {m next : Memory}

/-- The blocks on the stack that were declared under this name, dead or alive. -/
def declaredAs (m : Memory) (name : String) : Set BlockId :=
  {id | ∃ b ∈ m.blocks, b.isStack ∧ b.name = name ∧ b.id = id}

/-- What shrinks keeps every declaration, since no block leaves the registry. -/
theorem Shrinks.declaredAs (shrinks : m.Shrinks next) (name : String) : next.declaredAs name = m.declaredAs name := by
  obtain ⟨f, blocks, keeps⟩ := shrinks
  ext id
  simp only [Memory.declaredAs, blocks, List.mem_map, Set.mem_ofPred_eq]
  constructor
  · rintro ⟨_, ⟨b, member, rfl⟩, stack, named, same⟩
    exact ⟨b, member, (keeps b).isStack ▸ stack, (keeps b).name ▸ named, (keeps b).id ▸ same⟩
  · rintro ⟨b, member, stack, named, same⟩
    exact ⟨f b, ⟨b, member, rfl⟩, (keeps b).isStack.trans stack, (keeps b).name.trans named, (keeps b).id.trans same⟩

theorem pushHeap_declaredAs (m : Memory) (heapName : String) (size : Nat) (discipline : Discipline) (content : Content)
    (name : String) : (m.pushHeap heapName size discipline content).declaredAs name = m.declaredAs name := by
  ext id
  have heap :
      (Block.mk m.nextId heapName size m.nextHeapAddress (.heapFor discipline) content true 0).isStack = false := by
    cases discipline <;> rfl
  simp only [declaredAs, pushHeap, List.mem_append, List.mem_singleton, or_and_right, exists_or, exists_eq_left, heap,
    Bool.false_eq_true, false_and, or_false, Set.mem_ofPred_eq]

theorem pushStack_declaredAs (m : Memory) (declared : String) (size : Nat) (content : Content) (name : String) :
    (m.pushStack declared size content).declaredAs name =
      if declared = name then insert m.nextId (m.declaredAs name) else m.declaredAs name := by
  ext id
  by_cases same : declared = name
  · simp only [declaredAs, pushStack, List.mem_append, List.mem_singleton, or_and_right, exists_or, exists_eq_left,
      Block.isStack, same, true_and, if_true, Set.mem_insert_iff, Set.mem_ofPred_eq]
    rw [or_comm, eq_comm]
  · simp only [declaredAs, pushStack, List.mem_append, List.mem_singleton, or_and_right, exists_or, exists_eq_left,
      Block.isStack, same, false_and, and_false, or_false, if_false]

/-- Only a declaration puts a block on the stack. -/
theorem perform_declaredAs_of_unnamed {operation : Operation} (goes_on : operation ≠ .reset)
    (unnamed : operation.declares? = none) (name : String) :
    (m.perform operation).2.declaredAs name = m.declaredAs name := by
  have unchanged : m.Shrinks m := .of_blocks rfl
  cases operation with
  | createVariable | createPointer | createObject | copyShared => contradiction
  | allocate _ _ discipline | allocateObject _ _ discipline =>
    exact m.pushHeap_declaredAs _ _ discipline _ name
  | deallocate id => exact (settle_keeps m.Shrinks unchanged fun _ => .deallocate).declaredAs name
  | assignPointer pointer target => exact (settle_keeps m.Shrinks unchanged fun _ => .assignPointer).declaredAs name
  | moveUnique source dest => exact (settle_keeps m.Shrinks unchanged fun _ => .moveUnique).declaredAs name
  | endScope =>
    have left : m.Shrinks (m.perform .endScope).2 := perform_endScope_keeps m.Shrinks unchanged fun b _ _ _ =>
      (Shrinks.free m b "goes out of scope").trans (.leaveScope m b)
    exact left.declaredAs name
  | reportLeaks =>
    have reported : m.Shrinks m.reportLeaks := .of_blocks (reportLeaks_keeps blocks (fun _ _ _ _ => rfl) m)
    exact reported.declaredAs name
  | tick =>
    have aged : m.Shrinks m.tick := ⟨Block.age, rfl, Block.becomes_age⟩
    exact aged.declaredAs name
  | reset => contradiction

theorem Changes.declaredAs_subset (changes : m.Changes next) (name : String) :
    m.declaredAs name ⊆ next.declaredAs name := by
  rintro id ⟨b, member, stack, named, same⟩
  obtain ⟨c, there, becomes⟩ := changes.becomes member
  exact ⟨c, there, becomes.isStack.trans stack, becomes.name.trans named, becomes.id.trans same⟩

/-- A declaration adds its block under its name, and under no other. -/
theorem perform_declaredAs {operation : Operation} {declared : String} {id : BlockId}
    (declares : operation.declares? = some declared) (made : m.perform operation = (.created id, next))
    (name : String) :
    next.declaredAs name = if declared = name then insert id (m.declaredAs name) else m.declaredAs name := by
  cases operation with
  | createVariable | createPointer | createObject =>
    cases made
    obtain rfl := Option.some.inj declares
    exact m.pushStack_declaredAs _ _ _ name
  | copyShared source copy =>
    cases declares
    unfold perform at made
    dsimp only at made
    split at made
    · rename_i done copied
      obtain ⟨b, p, _, _, number, pushed⟩ := copyShared_eq_ok.mp copied
      cases made
      rw [pushed, number]
      have counted : (m.pushStack declared pointerSize (.pointer p)).Shrinks (m.pushCopy b p declared) := by
        unfold pushCopy
        dsimp only
        split
        · exact .of_blocks rfl
        · exact (Shrinks.countOwners _ _ (· + 1)).congr rfl
      rw [counted.declaredAs]
      exact m.pushStack_declaredAs declared _ _ name
    · cases made
  | _ => contradiction

end Memory

namespace Session

variable {base : BlockId} {s t : Session}

/-- Every name denotes the newest block declared under it. -/
structure Newest (s : Session) : Prop where
  denotes : ∀ name id, s.bindings.get? name = some id → IsGreatest (s.memory.declaredAs name) id
  undeclared : ∀ name, s.bindings.get? name = none → s.memory.declaredAs name = ∅

theorem Newest.congr (newest : s.Newest) (declared : ∀ name, t.memory.declaredAs name = s.memory.declaredAs name)
    (bindings : t.bindings = s.bindings) : t.Newest where
  denotes := by
    intro name id known
    rw [bindings] at known
    rw [declared]
    exact newest.denotes name id known
  undeclared := by
    intro name unknown
    rw [bindings] at unknown
    rw [declared]
    exact newest.undeclared name unknown

/-- A name goes on denoting its newest block. A new block has a greater number than all that are there. -/
theorem Change.newest (change : s.Change base t) (sound : s.memory.Sound) (newest : s.Newest) : t.Newest := by
  cases change with
  | perform operation permitted unnamed memory bindings =>
    refine newest.congr (fun name => ?_) bindings
    rw [memory]
    exact Memory.perform_declaredAs_of_unnamed permitted.ne_reset unnamed name
  | @declare operation declared declares made bindings =>
    have added := Memory.perform_declaredAs declares made
    have above (name : String) (id : BlockId) (there : id ∈ s.memory.declaredAs name) : id ≤ s.memory.nextId := by
      obtain ⟨b, member, _, _, rfl⟩ := there
      exact Nat.le_of_lt (sound.id_lt_next member)
    refine ⟨fun name id known => ?_, fun name unknown => ?_⟩
    · rw [bindings] at known
      rw [added]
      by_cases same : declared = name
      · subst same
        rw [Table.get?_set_self] at known
        obtain rfl := Option.some.inj known
        rw [if_pos rfl]
        refine ⟨Set.mem_insert _ _, ?_⟩
        rintro id (rfl | there)
        · exact Nat.le_refl _
        · exact above _ id there
      · rw [Table.get?_set_ne _ _ (Ne.symm same)] at known
        rw [if_neg same]
        exact newest.denotes name id known
    · rw [bindings] at unknown
      rw [added]
      by_cases same : declared = name
      · rw [same, Table.get?_set_self] at unknown
        contradiction
      · rw [Table.get?_set_ne _ _ (Ne.symm same)] at unknown
        rw [if_neg same]
        exact newest.undeclared name unknown
  | aside memory bindings => exact newest.congr (fun name => by rw [memory]) bindings

/-- What a name denotes can be read off the blocks: it is the newest block on the stack that was declared under that
name. -/
theorem Reachable.newest (reach : s.Reachable) : s.Newest := by
  have fresh : ({} : Session).Newest := ⟨nofun, fun name _ => by simp [Memory.declaredAs]⟩
  have both := reach.holds (I := fun s => s.Sound ∧ s.Newest) ⟨Reachable.sound .fresh, fresh⟩
    fun _ _ change before => ⟨change.sound before.1, change.newest before.1.memory before.2⟩
  exact both.2

/-- A name denotes a block where that is the greatest of those declared under it. -/
theorem Newest.named_iff (newest : s.Newest) {name : String} {id : BlockId} :
    s.bindings.get? name = some id ↔ IsGreatest (s.memory.declaredAs name) id := by
  refine ⟨newest.denotes name id, fun greatest => ?_⟩
  cases known : s.bindings.get? name with
  | none =>
    have there := greatest.1
    rw [newest.undeclared name known] at there
    contradiction
  | some other => rw [greatest.unique (newest.denotes name other known)]

theorem Newest.unnamed_iff (newest : s.Newest) {name : String} :
    s.bindings.get? name = none ↔ s.memory.declaredAs name = ∅ := by
  refine ⟨newest.undeclared name, fun empty => ?_⟩
  cases known : s.bindings.get? name with
  | none => rfl
  | some id =>
    have there := (newest.denotes name id known).1
    rw [empty] at there
    contradiction

/-- Nothing that was declared goes from the registry before a reset. -/
theorem Change.declaredAs_subset (change : s.Change base t) (sound : s.memory.Sound) (name : String) :
    s.memory.declaredAs name ⊆ t.memory.declaredAs name := by
  cases change with
  | perform operation permitted _ memory _ =>
    rw [memory]
    exact (Memory.Changes.perform sound permitted.ne_reset).declaredAs_subset name
  | declare operation declares made _ =>
    have performed := Memory.Changes.perform sound (Operation.ne_reset_of_declares declares)
    rw [made] at performed
    exact performed.declaredAs_subset name
  | aside memory _ => rw [memory]

theorem Changes.declaredAs_subset (changes : s.Changes base t) (sound : s.Sound) (name : String) :
    s.memory.declaredAs name ⊆ t.memory.declaredAs name := by
  have both := changes.keeps (I := fun u => u.Sound ∧ s.memory.declaredAs name ⊆ u.memory.declaredAs name)
    (fun _ _ change before =>
      ⟨change.sound before.1, before.2.trans (change.declaredAs_subset before.1.memory name)⟩) ⟨sound, subset_rfl⟩
  exact both.2

end Session

namespace Action

variable {s : Session} {name : Text}

theorem lookup_of_unnamed (unnamed : s.named? name = none) :
    lookup name s = .error (.script { line := s.line, cause := .undefinedVariable name.toName }) s := by
  unfold lookup
  rw [get_bind, unnamed]
  rfl

/-- A name that denotes a block is found if that is live, and is out of scope if not. -/
theorem lookup_of_named {id : BlockId} (named : s.named? name = some id) :
    lookup name s =
      if (s.memory.block? id).any (·.live) then .ok id s
      else .error (.script { line := s.line, cause := .outOfScope name.toName }) s := by
  unfold lookup
  rw [get_bind, named]
  dsimp only
  split <;> rfl

end Action

/-- A name denotes the newest block on the stack that was declared under it, dead or alive, and no other. It denotes
nothing just when no block was: none is there, and what is once there stays until a reset. A line that asks for the
name gets the block if that is live. Otherwise it is told which of the two is the matter. -/
theorem names_denote_newest {s : Session} (reach : s.Reachable) (name : Text) :
    (∀ id, s.named? name = some id ↔ IsGreatest (s.memory.declaredAs name.toName) id) ∧
    (s.named? name = none ↔ s.memory.declaredAs name.toName = ∅) ∧
    (∀ t, s.Later t → s.memory.declaredAs name.toName ⊆ t.memory.declaredAs name.toName) ∧
    (Action.lookup name s = .error (.script { line := s.line, cause := .undefinedVariable name.toName }) s ↔
      s.memory.declaredAs name.toName = ∅) ∧
    (Action.lookup name s = .error (.script { line := s.line, cause := .outOfScope name.toName }) s ↔
      ∃ b ∈ s.memory.blocks, IsGreatest (s.memory.declaredAs name.toName) b.id ∧ b.live = false) ∧
    (∀ id, Action.lookup name s = .ok id s ↔
      ∃ b ∈ s.memory.blocks, IsGreatest (s.memory.declaredAs name.toName) b.id ∧ b.live ∧ b.id = id) := by
  have newest := reach.newest
  have sound := reach.sound
  have named (id : BlockId) : s.named? name = some id ↔ IsGreatest (s.memory.declaredAs name.toName) id :=
    newest.named_iff
  have unnamed : s.named? name = none ↔ s.memory.declaredAs name.toName = ∅ := newest.unnamed_iff
  refine ⟨named, unnamed, fun t later => (later.changes (Nat.zero_le _)).declaredAs_subset sound _, ?_⟩
  simp only [← named, ← unnamed]
  cases known : s.named? name with
  | none => simp [Action.lookup_of_unnamed known]
  | some id =>
    obtain ⟨b, member, _, _, rfl⟩ := ((named id).mp known).1
    have found (Q : Block → Prop) : (∃ c ∈ s.memory.blocks, some b.id = some c.id ∧ Q c) ↔ Q b := by
      constructor
      · rintro ⟨c, there, same, holds⟩
        rwa [sound.memory.eq_of_id member there (Option.some.inj same)]
      · exact fun holds => ⟨b, member, rfl, holds⟩
    rw [Action.lookup_of_named known, sound.memory.block?_of_mem member]
    simp only [found]
    cases live : b.live with
    | true => simp [live]
    | false => simp [live]

/-- A variable of the same name in an inner scope hides the outer one, and still does when that scope is left. -/
theorem names_denote_newest_of_hidden :
    ∃ s : Session, s.Reachable ∧ (∃ b ∈ s.memory.blocks, b.id = 1 ∧ b.name = "x" ∧ b.live) ∧
      IsGreatest (s.memory.declaredAs "x") 2 ∧
      Action.lookup "x".toList s = .error (.script { line := s.line, cause := .outOfScope "x" }) s ∧
      s.memory.declaredAs "y" = ∅ ∧
      Action.lookup "y".toList s = .error (.script { line := s.line, cause := .undefinedVariable "y" }) s := by
  obtain ⟨s, reach, outer, inner, hidden, unnamed⟩ : ∃ s : Session, s.Reachable ∧
      (∃ b ∈ s.memory.blocks, b.id = 1 ∧ b.name = "x" ∧ b.live) ∧
      (∃ b ∈ s.memory.blocks, b.id = 2 ∧ b.live = false) ∧
      s.named? "x".toList = some 2 ∧ s.named? "y".toList = none :=
    ⟨(Action.execute "int main() \x7b\n  int x;\n  \x7b\n    int x;\n  \x7d\n".toList).after {}, .script _ .fresh, by
      decide +kernel⟩
  obtain ⟨named, _, _, _, gone, _⟩ := names_denote_newest reach "x".toList
  obtain ⟨_, missing, _, undefined, _, _⟩ := names_denote_newest reach "y".toList
  have newest := (named 2).mp hidden
  obtain ⟨b, member, two, dead⟩ := inner
  exact ⟨s, reach, outer, newest, gone.mpr ⟨b, member, two ▸ newest, dead⟩, missing.mp unnamed,
    undefined.mpr (missing.mp unnamed)⟩

end MemoryTrace
