import MemoryTrace.Proofs.Session.Deletion
import MemoryTrace.Proofs.Session.OwnerDeclaration
import MemoryTrace.Proofs.Session.PointerDeclaration

namespace MemoryTrace

open Script

/-- A line that declares a raw pointer to a new `T`. -/
def Script.rawAllocation (T x : Text) : Text := assigned (rawDeclared T x) (newOf T)

example : rawAllocation "int".toList "p".toList = "int* p = new int;".toList := rfl

namespace Memory

/-- From `m` to `next`, a raw pointer `b` and a heap block `c` that it points to have come. Both are live, and the
blocks that were there are still the same. -/
structure AddsRaw (m next : Memory) (size : Nat) (b c : Block) : Prop where
  blocks : next.blocks = m.blocks ++ [b, c]
  fresh : m.block? b.id = none ∧ m.block? c.id = none
  apart : b.id ≠ c.id
  pointer : ∃ p, next.LivePointer b.id b p ∧ p.discipline = .raw ∧ p.target = some c.id
  found : next.block? c.id = some c
  live : c.live
  heap : c.storage = .heap
  sized : c.size = size

variable {m created allocated : Memory} {b c : Block} {p : Pointer}

/-- Aiming a raw pointer that has just come changes none of the older blocks. -/
theorem Pushes.reaim_blocks (sound : m.Sound) (first : m.Pushes created b) (second : created.Pushes allocated c)
    (raw : p.discipline = .raw) (target : Option BlockId) :
    (allocated.reaim b p target).blocks = m.blocks ++ [b.aim target, c] := by
  have older : m.blocks.map (fun d => if d.id = b.id then d.aim target else d) = m.blocks := by
    refine (List.map_congr_left fun d member => ?_).trans (List.map_id m.blocks)
    exact if_neg (Nat.ne_of_lt (first.id ▸ sound.id_lt_next member))
  have number : c.id = b.id + 1 := by rw [second.id, first.nextId, first.id]
  rw [reaim_blocks_of_not_shared (by simp [raw]), update, second.blocks, first.blocks, List.append_assoc,
    List.map_append, older]
  simp [number]

/-- A raw pointer that has just come is aimed at a heap block that has come after it. -/
theorem Pushes.aim_raw (sound : m.Sound) (first : m.Pushes created b) (second : created.Pushes allocated c)
    (holds : b.pointer? = some p) (raw : p.discipline = .raw) (heap : c.storage = .heap) :
    ∃ next, allocated.assignPointer b.id (some c.id) = .ok next ∧ m.AddsRaw next c.size (b.aim (some c.id)) c := by
  have later := second.sound (first.sound sound)
  obtain ⟨held, null⟩ := first.livePointer sound holds
  have still : allocated.LivePointer b.id b p := ⟨second.block? held.found, held.live, holds⟩
  have reached : allocated.block? c.id = some c := later.block?_of_mem second.member
  have moved : p.target ≠ some c.id := by simp [null]
  have done : allocated.assignPointer b.id (some c.id) = .ok (allocated.reaim b p (some c.id)) := by
    refine assignPointer_eq_ok.mpr ⟨b, p, still, fun id aimed => ?_, (if_neg moved).symm⟩
    obtain rfl := Option.some.inj aimed
    exact ⟨c, reached, second.live⟩
  have blocks := first.reaim_blocks sound second raw (some c.id)
  have reaches {d : Block} (there : d ∈ [b.aim (some c.id), c]) :
      (allocated.reaim b p (some c.id)).block? d.id = some d :=
    (later.assignPointer done).block?_of_mem (blocks ▸ List.mem_append_right _ there)
  have number : c.id = m.nextId + 1 := by rw [second.id, first.nextId]
  have same : (b.aim (some c.id)).id = m.nextId := (Block.aim_id ..).trans first.id
  exact ⟨_, done,
    { blocks
      fresh := ⟨sound.block?_of_new same.ge, sound.block?_of_new (number ▸ Nat.le_succ m.nextId)⟩
      apart := by
        rw [same, number]
        exact (Nat.succ_ne_self _).symm
      pointer := by
        refine ⟨{ p with target := some c.id }, ⟨reaches List.mem_cons_self, ?_, ?_⟩, raw, rfl⟩
        · rw [Block.aim_live]
          exact first.live
        · rw [Block.aim_pointer?, holds]
          rfl
      found := reaches (by simp)
      live := second.live
      heap
      sized := rfl }⟩

end Memory

namespace Script

variable {T x : Text} (type : IsPointeeName T) (named : isName x)

include type

theorem newOf_isInitialiser (typeText : IsTypeText T) : IsInitialiser (newOf T) where
  nonempty := nofun
  trimmed := trim_solid (solid_newOf typeText)
  single := by
    have outside : ',' ∉ T := not_mem_of_isName type.named (by decide)
    simp [newOf, outside]
  ended := not_mem_newOf typeText (by decide)

include named

/-- The star stands behind the type, so it is the target of no assignment through a pointer. -/
theorem not_isIndirect_rawDeclared : isIndirect (rawDeclared T x) = false := by
  have absent {c : Char} (mark : isNameChar c = false) (other : c ∉ ['*', ' ']) : c ∉ rawDeclared T x := by
    have outside_type : c ∉ T := not_mem_of_isName type.named mark
    have outside : c ∉ x := not_mem_of_isName named mark
    simpa [rawDeclared, outside_type, outside] using other
  have unstarred : (rawDeclared T x).startsWith "*" = false := by
    obtain ⟨c, rest, rfl, start, _⟩ := isName_cons type.named
    have other : '*' ≠ c := (ne_of_isNameChar (isNameChar_of_isNameStart start) (by decide)).symm
    simp [rawDeclared, Text.startsWith, List.isPrefixOf, other]
  rw [isIndirect, trim_solid (rawDeclared_solid type named), unstarred,
    not_mentions_of_absent (c := '>') (by decide) (absent (by decide) (by decide))]
  simp [absent (c := '.') (by decide) (by decide), absent (c := '[') (by decide) (by decide)]

end Script

namespace Action

variable {s t : Session} {T x : Text} {size : Nat}

/-- A block of a primitive type has the size of that type. -/
theorem allocatePointee_primitive (primitive : primitiveSize? (baseType T) = some size) (single : elementCount? T = none)
    (fits : size ≤ largestWord) (discipline : Discipline) (owner : Text) (s : Session) :
    allocatePointee T discipline owner s = create (·.allocate ("*" ++ owner.toName) size discipline) s := by
  unfold allocatePointee
  rw [get_bind, primitive, single]
  dsimp only
  rw [Option.getD_none, arraySize, Nat.mul_one, if_pos fits]
  rfl

/-- Raw pointers own nothing that would go when they are aimed elsewhere. -/
theorem reseat_raw {id : BlockId} (raw : s.discipline? id = some .raw) (target : Option BlockId) :
    reseat id target s = attempt (·.assignPointer id target) s := by
  unfold reseat
  rw [get_bind, raw, if_neg nofun]
  exact bind_of_ok (attempt_eq_ok.mpr ⟨s.memory, rfl, rfl⟩) _

/-- A new raw pointer is given a new block of a primitive type. -/
theorem storePointer_newOf (typeText : IsTypeText T) (primitive : primitiveSize? (baseType T) = some size)
    (single : elementCount? T = none) (fits : size ≤ largestWord) (sound : s.memory.Sound) (x : Text) :
    ∃ next b c,
      storePointer s.memory.nextId x (newOf T) (s.withPointer T x) = .ok () { s.withPointer T x with memory := next } ∧
      s.memory.AddsRaw next size b c ∧ (s.withPointer T x).named? x = some b.id := by
  let made := s.withPointer T x
  let allocated := (made.memory.allocate ("*" ++ x.toName) size .raw).2
  obtain ⟨b, first, _, holds⟩ := s.memory.createPointer_pushes x.toName .raw (s.class? T)
  obtain ⟨c, second, heap, rfl⟩ : ∃ c, made.memory.Pushes allocated c ∧ c.storage = .heap ∧ c.size = size :=
    ⟨_, ⟨rfl, rfl, rfl, rfl, rfl, nofun, nofun⟩, rfl, rfl⟩
  obtain ⟨next, aimed, adds⟩ := first.aim_raw sound second holds rfl heap
  obtain ⟨held, _⟩ := first.livePointer sound holds
  have raw : made.discipline? b.id = some .raw := Session.discipline?_of_held (s := made) held
  have still : ({ made with memory := allocated } : Session).discipline? b.id = some .raw :=
    Session.discipline?_of_held (p := { discipline := .raw, pointee := s.class? T })
      ⟨second.block? held.found, first.live, holds⟩
  have allocates : allocatePointee T .raw x made = .ok c.id { made with memory := allocated } := by
    rw [allocatePointee_primitive primitive single fits, second.id]
    rfl
  have stored : storePointer b.id x (newOf T) made = .ok () { made with memory := next } := by
    have made : MakesOwned .unique T (newOf T) := .new
    rw [storePointer_made typeText made, get_bind, raw, Option.getD_some, bind_of_ok allocates, reseat_raw still]
    exact attempt_eq_ok.mpr ⟨next, aimed, rfl⟩
  have named : made.named? x = some (b.aim (some c.id)).id := by
    rw [Block.aim_id, first.id]
    exact Table.get?_set_self ..
  exact first.id ▸ ⟨_, _, c, stored, adds, named⟩

section Int

theorem isPointeeName_int : IsPointeeName "int".toList := by decide

theorem isTypeText_int : IsTypeText "int".toList := by decide

variable (named : isName x)

theorem mentionsSmartPointer_rawAllocation (x : Text) :
    mentionsSmartPointer (rawAllocation "int".toList x) = mentionsSmartPointer x := by
  have type : mentionsSmartPointer "int".toList = false := by decide
  have value : mentionsSmartPointer (newOf "int".toList) = false := by decide
  rw [rawAllocation, mentionsSmartPointer_assigned, mentionsSmartPointer_rawDeclared, type, value, Bool.false_or,
    Bool.or_false]

include named

/-- The line assigns, and the text in front of the sign is no name. -/
theorem smartPointer_rawAllocation : smartPointer (rawAllocation "int".toList x) =
    note (.unmodelledTarget (rawDeclared "int".toList x).toName) := by
  have stop : ∀ c ∈ ('*' :: ' ' :: x).head?, isNameChar c = false := by
    rintro c ⟨⟩
    decide
  have splits := splitAssignment?_assigned (rawDeclared_solid isPointeeName_int named)
    (sign_not_mem_rawDeclared isPointeeName_int named) (solid_newOf isTypeText_int)
  have unqualified : stripQualifiers (rawDeclared "int".toList x) = rawDeclared "int".toList x :=
    stripQualifiers_of_name isPointeeName_int.named (by decide) stop
  have no_type : startsWithSmartType (rawDeclared "int".toList x) = false := rfl
  have first : leadingName (rawDeclared "int".toList x) = "int".toList :=
    leadingName_append isPointeeName_int.named stop
  have unnamed : isName (rawDeclared "int".toList x) = false :=
    Bool.eq_false_iff.mpr fun named => not_mem_of_isName named (c := '*') (by decide) (by simp [rawDeclared])
  unfold smartPointer
  rw [rawAllocation, splits, filter_simple]
  dsimp only
  rw [unqualified, no_type, first, if_neg Bool.false_ne_true, if_neg (by decide), assign,
    not_isIndirect_rawDeclared isPointeeName_int named, unnamed]
  rfl

variable (closed : s.openClass = none) (inside : s.inMain)

include closed inside

/-- A name that mentions no smart pointer is given a raw pointer to a new block. -/
theorem executeLine_rawAllocation (sound : s.memory.Sound) (untagged : mentionsSmartPointer x = false) :
    ∃ t b c, executeLine (rawAllocation "int".toList x) s = .ok () t ∧ s.memory.AddsRaw t.memory 4 b c ∧
      t.named? x = some b.id ∧ t.openClass = none ∧ t.inMain := by
  have plain := (mentionsSmartPointer_rawAllocation x).trans untagged
  obtain ⟨kind, ran⟩ := statement_rawAssigned closed inside (newOf_isInitialiser isPointeeName_int isTypeText_int) sound
    isPointeeName_int named plain
  obtain ⟨next, b, c, stored, adds, bound⟩ := storePointer_newOf
    (s := s.note (.running kind (rawAllocation "int".toList x).toName)) isTypeText_int (by decide : _ = some 4)
    (by decide) (by decide) sound x
  exact ⟨_, b, c, executeLine_of_statement (ran.trans stored), adds, bound, closed, inside⟩

/-- A line whose name mentions a smart pointer is taken for a line about smart pointers, and nothing comes of it. -/
theorem executeLine_rawAllocation_tagged (tagged : mentionsSmartPointer x) :
    ∃ t, executeLine (rawAllocation "int".toList x) s = .ok () t ∧ t.silent = s.silent := by
  have mentions := (mentionsSmartPointer_rawAllocation x).trans tagged
  have ordinary : Ordinary (rawAllocation "int".toList x) := by
    simpa [rawAllocation, assigned] using
      ordinary_rawDeclared isPointeeName_int x (' ' :: '=' :: ' ' :: newOf "int".toList)
  have taken : s.classify (rawAllocation "int".toList x) = .ok .smartPointer := by
    rw [ordinary.classify_inside closed inside, mentions]
    rfl
  have ran := statement_of_classify taken
  rw [perform, smartPointer_rawAllocation named] at ran
  exact ⟨_, executeLine_of_statement ran, rfl⟩

end Int

end Action

/-- Inside `main` the allocation of an `int` gets through, whatever the name. It makes a raw pointer of that name and a
block of 4 bytes on the heap for it, and deleting the pointer frees that block. A name that contains that of a smart
pointer or a factory makes it come to nothing. -/
theorem allocation_by_name {s : Session} (reach : s.Reachable) (inside : s.inMain) (closed : s.openClass = none)
    {x : Text} (named : isName x) :
    if mentionsSmartPointer x then
      ∃ t, Action.executeLine (rawAllocation "int".toList x) s = .ok () t ∧ t.silent = s.silent
    else
      ∃ t u b c, Action.executeLine (rawAllocation "int".toList x) s = .ok () t ∧ s.memory.AddsRaw t.memory 4 b c ∧
        t.named? x = some b.id ∧ Action.executeLine (deleteLine false x) t = .ok () u ∧ t.memory.Frees c u.memory := by
  split
  · rename_i tagged
    exact Action.executeLine_rawAllocation_tagged named closed inside tagged
  · rename_i untagged
    obtain ⟨t, b, c, ran, adds, bound, still_closed, still_inside⟩ :=
      Action.executeLine_rawAllocation named closed inside reach.sound.memory (Bool.eq_false_iff.mpr untagged)
    have sound : t.memory.Sound := (Action.after_of_ok ran ▸ reach.line _ : t.Reachable).sound.memory
    obtain ⟨p, held, raw, aimed⟩ := adds.pointer
    have uncounted : c.owners? = none := by simp [Block.owners?, adds.heap]
    have deleted := Action.delete_of_alone (s := t.note (.running .delete (deleteLine false x).toName)) false named
      bound held (by simp [raw]) aimed adds.found adds.live (by simp [uncounted]) adds.apart
    exact ⟨t, _, b, c, ran, adds, bound, Action.executeLine_deleteLine still_inside still_closed deleted,
      sound.frees (Memory.block?_some adds.found).1 "freed"⟩

/-- A name that begins with a keyword and that an older pointer has already. -/
theorem allocation_by_name_of_keyword_prefix :
    ∃ (s t u : Session) (b c : Block), s.Reachable ∧ s.inMain ∧ s.openClass = none ∧ s.memory.blocks.length = 2 ∧
      (s.named? "delete_me".toList).isSome ∧ Action.executeLine "int* delete_me = new int;".toList s = .ok () t ∧
      s.memory.AddsRaw t.memory 4 b c ∧ t.named? "delete_me".toList = some b.id ∧
      Action.executeLine "delete delete_me;".toList t = .ok () u ∧ t.memory.Frees c u.memory := by
  obtain ⟨s, reach, inside, closed, two, known⟩ : ∃ s : Session, s.Reachable ∧ s.inMain ∧ s.openClass = none ∧
      s.memory.blocks.length = 2 ∧ (s.named? "delete_me".toList).isSome :=
    ⟨(Action.execute "int main() \x7b\n  int* delete_me = new int;".toList).after {}, .script _ .fresh,
      by decide +kernel⟩
  have named : isName "delete_me".toList := by decide
  have allocated := allocation_by_name reach inside closed named
  rw [if_neg (by decide)] at allocated
  obtain ⟨t, u, b, c, facts⟩ := allocated
  exact ⟨s, t, u, b, c, reach, inside, closed, two, known, facts⟩

/-- The name is no keyword, but it ends like a smart pointer. The line gets through, and there is no new block. -/
theorem allocation_for_unique_name_is_lost :
    isName "my_unique_ptr".toList ∧ ¬ reservedWords.any (·.toList = "my_unique_ptr".toList) ∧
      ∃ s t : Session, s.Reachable ∧ s.inMain ∧ s.openClass = none ∧
        Action.executeLine "int* my_unique_ptr = new int;".toList s = .ok () t ∧
        t.named? "my_unique_ptr".toList = none ∧ ¬ ∃ b c, s.memory.AddsRaw t.memory 4 b c := by
  obtain ⟨s, reach, inside, closed, unknown⟩ : ∃ s : Session, s.Reachable ∧ s.inMain ∧ s.openClass = none ∧
      s.named? "my_unique_ptr".toList = none :=
    ⟨(Action.execute "int main() \x7b".toList).after {}, .script _ .fresh, by decide +kernel⟩
  have named : isName "my_unique_ptr".toList := by decide
  obtain ⟨t, ran, same⟩ := Action.executeLine_rawAllocation_tagged named closed inside (by decide)
  have still := Session.eq_of_silent same
  have unbound : t.named? "my_unique_ptr".toList = none := by
    rw [still]
    exact unknown
  refine ⟨named, by decide, s, t, reach, inside, closed, ran, unbound, ?_⟩
  rintro ⟨b, c, adds⟩
  have blocks : t.memory.blocks = s.memory.blocks := by rw [still]
  have added := congrArg List.length (blocks.symm.trans adds.blocks)
  rw [List.length_append] at added
  exact absurd added (Nat.lt_add_of_pos_right (Nat.succ_pos 1)).ne

end MemoryTrace
