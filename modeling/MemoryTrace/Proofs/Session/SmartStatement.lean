import MemoryTrace.Proofs.Script.SmartValue
import MemoryTrace.Proofs.Session.Success

namespace MemoryTrace

open Script

/-- Nothing in memory is for raw pointers, every owner is in place, and each name denotes a pointer
of its kind. A statement may own blocks itself for a moment. -/
structure Session.Smart (uses : Text → SmartKind) (loose : List BlockId) (s : Session) : Prop where
  closed : s.openClass = none
  owned : s.memory.Owned loose
  noRaw : ∀ b ∈ s.memory.blocks, ¬ b.isHeapOf .raw
  named : ∀ x id, s.named? x = some id → s.discipline? id = some (uses x).discipline

theorem Script.SmartKind.discipline_ne_raw (kind : SmartKind) : kind.discipline ≠ .raw := by
  cases kind <;> decide

/-- A value that is no name, and has none inside, names no pointer. -/
theorem Action.pointerSource?_of_unnamed {value : Text} (solid : Text.Bounded isMargin value)
    (unmoved : movedFrom? value = none) (whole : value.beforeEnd? ".get()" = none) (unnamed : isName value = false) :
    pointerSource? value = pure none := by
  unfold pointerSource?
  dsimp only
  rw [unmoved, Option.getD_none, trim_solid solid, whole, Option.getD_none, unnamed]
  rfl

theorem Action.pointerSource?_factoryCall (kind : SmartKind) (T : Text) :
    pointerSource? (factoryCall kind T) = pure none :=
  pointerSource?_of_unnamed (solid_factoryCall kind T) (movedFrom?_factoryCall kind T) (beforeEnd?_factoryCall kind T)
    (not_isName_factoryCall kind T)

namespace Session.Smart

variable {uses : Text → SmartKind} {loose : List BlockId} {s t : Session} {x : Text}

theorem fresh : ({} : Session).Smart uses [] := ⟨rfl, Memory.owned_withCapacity 100, nofun, nofun⟩

theorem congr (smart : s.Smart uses loose) (memory : t.memory = s.memory)
    (bindings : t.bindings = s.bindings) (openClass : t.openClass = s.openClass) :
    t.Smart uses loose where
  closed := openClass ▸ smart.closed
  owned := memory ▸ smart.owned
  noRaw := memory ▸ smart.noRaw
  named := by
    intro x id known
    rw [named?, bindings] at known
    have kind := smart.named x id known
    rwa [discipline?, pointer?, memory]

theorem note (smart : s.Smart uses loose) (remark : Remark) : (s.note remark).Smart uses loose :=
  smart.congr rfl rfl rfl

/-- Memory may change if all owners stay in place. -/
theorem become (smart : s.Smart uses loose) {m : Memory} {rest : List BlockId}
    (owned : m.Owned rest) (extends_ : s.memory.Extends m) :
    ({ s with memory := m } : Session).Smart uses rest where
  closed := smart.closed
  owned := owned
  noRaw := by
    intro b member raw
    obtain ⟨c, there, was⟩ := extends_.noRaw b member raw
    exact smart.noRaw c there was
  named := fun x id known => extends_.disciplines id _ (smart.named x id known)

/-- A name may be given a pointer of its kind. -/
theorem bind (smart : s.Smart uses loose) {id : BlockId}
    (kind : s.discipline? id = some (uses x).discipline) :
    ({ s with bindings := s.bindings.set x.toName id } : Session).Smart uses loose where
  closed := smart.closed
  owned := smart.owned
  noRaw := smart.noRaw
  named := by
    intro y other known
    change (s.bindings.set x.toName id).get? y.toName = some other at known
    by_cases same : y = x
    · subst same
      rw [Table.get?_set_self] at known
      exact Option.some.inj known ▸ kind
    · rw [Table.get?_set_ne _ _ fun equal => same (Text.toName_inj.mp equal)] at known
      exact smart.named y other known

/-- A block of some discipline holds a pointer of it. -/
theorem pointer_of_kind {id : BlockId} {d : Discipline} (kind : s.discipline? id = some d) :
    ∃ b p, s.memory.block? id = some b ∧ b.pointer? = some p ∧ p.discipline = d ∧
      s.target? id = p.target := by
  obtain ⟨b, p, found, holds, owner⟩ := Memory.discipline?_eq_some.mp kind
  refine ⟨b, p, found, holds, owner, ?_⟩
  rw [target?, pointer?, found, Option.bind_some, holds, Option.bind_some]

/-- What a pointer points to, another pointer of its discipline may point to as well. -/
theorem fits_target (smart : s.Smart uses loose) {id : BlockId} {d : Discipline}
    (kind : s.discipline? id = some d) : s.memory.Fits d (s.target? id) := by
  obtain ⟨b, p, found, holds, owner, target⟩ := pointer_of_kind kind
  rw [target]
  exact smart.owned.matched d b (Memory.block?_some found).1 p holds owner

/-- A new pointer of the kind that its name is for. -/
theorem bindPointer (smart : s.Smart uses []) {id : BlockId} {pointee : Option ClassLayout}
    (done : Action.bindPointer x (uses x).discipline pointee s = .ok id t) :
    t.Smart uses [] ∧ t.discipline? id = some (uses x).discipline ∧ s.memory.Extends t.memory := by
  cases done
  obtain ⟨b, pushed, stack, holds⟩ :=
    s.memory.createPointer_pushes x.toName (uses x).discipline pointee
  have owned := smart.owned.pushesStack pushed stack
  have kind := pushed.discipline? owned.sound holds
  have extends_ := Memory.Extends.push pushed.blocks (by simp [Block.isHeapOf, stack])
  exact ⟨(smart.become owned extends_).bind kind, kind, extends_⟩

/-- A copy of a shared pointer, for a name of that kind. -/
theorem bindSharedCopy (smart : s.Smart uses []) (shared : uses x = .shared) {source : BlockId}
    (done : Action.bindSharedCopy source x s = .ok () t) : t.Smart uses [] := by
  obtain ⟨id, next, copied, rfl⟩ := Action.bindSharedCopy_eq_ok done
  obtain ⟨b, p, held, owner, rfl, rfl⟩ := Memory.copyShared_eq_ok.mp copied
  have owned := smart.owned.pushCopy held owner x.toName
  have kind := Memory.pushCopy_discipline? owned.sound
  rw [owner] at kind
  have copy := smart.become owned (.pushCopy ..)
  refine copy.bind (kind.trans ?_)
  rw [shared]
  rfl

/-- A shared pointer may be aimed at what another one points to. -/
theorem assignShared (smart : s.Smart uses []) {id : BlockId} {target : Option BlockId}
    (kind : s.discipline? id = some .shared) (fits : s.memory.Fits .shared target)
    (done : Action.attempt (·.assignPointer id target) s = .ok () t) :
    t.Smart uses [] ∧ s.memory.Extends t.memory := by
  obtain ⟨next, assigned, rfl⟩ := Action.attempt_eq_ok.mp done
  obtain ⟨b, p, found, holds, owner, _⟩ := pointer_of_kind kind
  obtain ⟨c, q, held, _⟩ := Memory.assignPointer_eq_ok.mp assigned
  obtain rfl := Option.some.inj (found.symm.trans held.found)
  obtain rfl := Option.some.inj (holds.symm.trans held.holds)
  have extends_ := Memory.Extends.of_shrinks (.assignPointer assigned)
  have owned := smart.owned.assignShared held assigned owner (.inl rfl) fits
  exact ⟨smart.become owned extends_, extends_⟩

/-- A pointer may take over from another one of its kind. -/
theorem assignFrom (smart : s.Smart uses []) {dest source : BlockId} {moved : Bool}
    (dest_kind : s.discipline? dest = some (uses x).discipline)
    (source_kind : s.discipline? source = some (uses x).discipline)
    (copies : moved = false → uses x = .shared)
    (done : Action.assignFrom dest x source moved s = .ok () t) : t.Smart uses [] := by
  unfold Action.assignFrom at done
  split at done
  · obtain ⟨_, rfl⟩ := Action.pure_eq_ok.mp done
    exact smart
  rw [Action.get_bind, dest_kind, source_kind] at done
  cases kind : uses x with
  | unique =>
    rw [kind] at done
    cases moved with
    | false => exact absurd (kind.symm.trans (copies rfl)) nofun
    | true =>
      obtain ⟨next, given, rfl⟩ := Action.attempt_eq_ok.mp done
      exact smart.become (smart.owned.moveUnique given) (.of_shrinks (.moveUnique given))
  | shared =>
    rw [kind] at done dest_kind source_kind
    cases moved with
    | true =>
      obtain ⟨_, u, first, second⟩ := Action.bind_eq_ok.mp done
      obtain ⟨aimed, extends_⟩ :=
        smart.assignShared dest_kind (smart.fits_target source_kind) first
      have still_shared := extends_.disciplines source _ source_kind
      exact (aimed.assignShared still_shared (Memory.fits_none _ _) second).1
    | false =>
      obtain ⟨_, u, first, second⟩ := Action.bind_eq_ok.mp done
      exact (smart.assignShared dest_kind (Memory.fits_none _ _) first).1.bindSharedCopy kind second

/-- A smart pointer that is aimed at a new block, or at nothing, lets go of what it owned. -/
theorem reseat {id : BlockId} {target : Option BlockId} (smart : s.Smart uses target.toList)
    (kind : s.discipline? id = some (uses x).discipline)
    (fresh : ∀ t, target = some t → s.memory.Untargeted t)
    (fits : s.memory.Fits (uses x).discipline target)
    (done : Action.reseat id target s = .ok () t) : t.Smart uses [] := by
  obtain ⟨freed, next, released, assigned, rfl⟩ := Action.reseat_eq_ok done
  obtain ⟨b, p, found, holds, owner, aimed⟩ := pointer_of_kind kind
  rw [kind, aimed, ← owner] at released
  simp only [Option.some.injEq] at released
  rw [← owner] at fits
  have reseated :=
    smart.owned.reseat found holds (owner ▸ (uses x).discipline_ne_raw) fresh fits released assigned
  have shrinks := (Memory.Shrinks.deallocateIfAny released).trans (.assignPointer assigned)
  exact smart.become reseated (.of_shrinks shrinks)

theorem make (smart : s.Smart uses []) {T : Text} {id : BlockId}
    (kind : s.discipline? id = some (uses x).discipline)
    (done : (do
      let target ← Action.allocatePointee T (uses x).discipline x
      Action.reseat id (some target) : Action Unit) s = .ok () t) : t.Smart uses [] := by
  obtain ⟨target, u, allocated, aimed⟩ := Action.bind_eq_ok.mp done
  obtain ⟨b, pushed, heap, rfl, same⟩ := Action.allocatePointee_eq_ok allocated
  have made := smart.owned.pushesHeap pushed heap
  rw [if_neg (uses x).discipline_ne_raw] at made
  have smart_heap : ¬ b.isHeapOf .raw :=
    fun raw => (uses x).discipline_ne_raw (Block.isHeapOf_inj heap raw)
  have extends_ := Memory.Extends.push pushed.blocks smart_heap
  have allocated_smart : u.Smart uses (some b.id).toList := by
    rw [same]
    exact smart.become made extends_
  have still : u.discipline? id = some (uses x).discipline := extends_.disciplines id _ kind
  refine allocated_smart.reseat still (fun t aimed => ?_) (fun t there aimed => ?_) aimed
  · exact Option.some.inj aimed ▸ pushed.untargeted smart.owned.sound
  · have member : b ∈ u.memory.blocks :=
      pushed.blocks ▸ List.mem_append_right _ (List.mem_singleton_self b)
    obtain rfl := made.sound.eq_of_id there member (Option.some.inj aimed).symm
    exact heap

/-- A name inside a value is found, and what it denotes is a pointer of its kind. -/
theorem pointerSource? (smart : s.Smart uses loose) {value y : Text} (usable : IsVariable y)
    (solid : Text.Bounded isMargin value) (names : (movedFrom? value).getD value = y)
    {source : Option (BlockId × Bool)} (done : Action.pointerSource? value s = .ok source t) :
    t = s ∧ ∃ id, source = some (id, (movedFrom? value).isSome) ∧
      s.discipline? id = some (uses y).discipline := by
  have unreserved : ["true", "false", "this"].any (·.toList = y) = false :=
    usable.not_any (by decide)
  unfold Action.pointerSource? at done
  have undotted : '.' ∉ y := not_mem_of_isName usable.named (by decide)
  rw [trim_solid solid, names, beforeEnd?_of_absent (c := '.') (by decide) undotted,
    Option.getD_none, usable.named, unreserved] at done
  obtain ⟨id, u, found, later⟩ := Action.bind_eq_ok.mp done
  obtain ⟨rfl, known⟩ := Action.lookup_eq_ok found
  have kind := smart.named y id known
  have pointer : (u.pointer? id).isSome := by
    obtain ⟨b, p, there, holds, _⟩ := pointer_of_kind kind
    rw [Session.pointer?, there, Option.bind_some, holds]
    rfl
  rw [Action.get_bind, if_pos pointer] at later
  obtain ⟨rfl, rfl⟩ := Action.pure_eq_ok.mp later
  exact ⟨rfl, id, rfl, kind⟩

/-- Where a value is another pointer, it is copied or moved from. -/
theorem storeSource (smart : s.Smart uses []) {value y : Text} {id : BlockId}
    (plain : PlainValue value) (kind : s.discipline? id = some (uses x).discipline)
    (usable : IsVariable y) (same_kind : uses y = uses x)
    (names : (movedFrom? value).getD value = y)
    (copies : (movedFrom? value).isSome = false → uses x = .shared)
    (not_null : isNullLiteral value = false) (no_factory : isFactoryCall value = false)
    (no_address : '&' ∉ value) (done : Action.storePointer id x value s = .ok () t) :
    t.Smart uses [] := by
  unfold Action.storePointer at done
  rw [Action.get_bind, trim_solid plain.solid, not_null, plain.not_new, no_factory,
    afterStart?_of_absent (c := '&') (by decide) no_address] at done
  obtain ⟨source, u, found, later⟩ := Action.bind_eq_ok.mp done
  obtain ⟨rfl, other, rfl, source_kind⟩ := smart.pointerSource? usable plain.solid names found
  rw [same_kind] at source_kind
  exact smart.assignFrom kind source_kind copies later

/-- Whatever a pointer is given that its kind allows, the session keeps to smart pointers. -/
theorem storePointer (smart : s.Smart uses []) {value : Text}
    (allowed : SmartValue uses (uses x) value) {id : BlockId}
    (kind : s.discipline? id = some (uses x).discipline)
    (done : Action.storePointer id x value s = .ok () t) : t.Smart uses [] := by
  have plain := allowed.plain
  have null (is_null : isNullLiteral value) : t.Smart uses [] := by
    unfold Action.storePointer at done
    rw [Action.get_bind, trim_solid plain.solid, if_pos is_null] at done
    have idle : s.Smart uses (none : Option BlockId).toList := smart
    exact idle.reseat kind (by rintro _ ⟨⟩) (Memory.fits_none _ _) done
  cases allowed with
  | null => exact null (by decide)
  | @make T primitive =>
    have not_null : isNullLiteral (factoryCall (uses x) T) = false :=
      not_isNullLiteral_of_mem (c := ')') plain.solid (by decide) (by simp [factoryCall])
    unfold Action.storePointer at done
    rw [Action.get_bind, trim_solid plain.solid, not_null, plain.not_new, isFactoryCall_factoryCall,
      templateArgument?_factoryCall primitive.isTypeText, kind] at done
    exact smart.make kind done
  | @move y usable same_kind =>
    have moved := movedFrom?_moveOf usable.named
    refine smart.storeSource plain kind usable same_kind (by rw [moved]; rfl)
      (by rw [moved]; rintro ⟨⟩) ?_ ?_ ?_ done
    · exact not_isNullLiteral_of_mem plain.solid (by decide) (bracket_mem_moveOf y)
    · rfl
    · exact address_not_mem_moveOf usable.named
  | copy usable source_shared dest_shared =>
    have copied := movedFrom?_of_name usable.named
    by_cases is_null : isNullLiteral value
    · exact null is_null
    · refine smart.storeSource plain kind usable (source_shared.trans dest_shared.symm)
        (by rw [copied]; rfl)
        (fun _ => dest_shared) (Bool.eq_false_iff.mpr is_null) ?_ ?_ done
      · exact not_isFactoryCall_of_name usable.named usable.untagged
      · exact not_mem_of_isName usable.named (by decide)

theorem declareSmart (smart : s.Smart uses []) {T : Text} {init : Option Text}
    (allowed : ∀ value, init = some value → SmartValue uses (uses x) value)
    (done : Action.declareSmart x (uses x).discipline T init s = .ok () t) : t.Smart uses [] := by
  unfold Action.declareSmart at done
  rw [Action.get_bind] at done
  have unset {pointee : Option ClassLayout}
      (done : (discard (Action.bindPointer x (uses x).discipline pointee) : Action Unit) s = .ok () t) :
      t.Smart uses [] := by
    obtain ⟨id, bound⟩ := Action.discard_eq_ok done
    exact (smart.bindPointer bound).1
  cases init with
  | none => exact unset done
  | some value =>
    have value_allowed := allowed value rfl
    have plain := value_allowed.plain
    have nonempty : value.isEmpty = false := by
      obtain ⟨c, rest, rfl, _⟩ := plain.solid.first
      rfl
    rw [Option.map_some, trim_solid plain.solid, Option.filter_some, nonempty] at done
    cases is_null : isNullLiteral value with
    | true =>
      rw [is_null] at done
      exact unset done
    | false =>
      rw [is_null] at done
      obtain ⟨source, u, found, later⟩ := Action.bind_eq_ok.mp done
      cases value_allowed with
      | null => exact absurd is_null (by decide)
      | @make T primitive =>
        rw [Action.pointerSource?_factoryCall] at found
        obtain ⟨rfl, rfl⟩ := Action.pure_eq_ok.mp found
        obtain ⟨id, v, bound, stored⟩ := Action.bind_eq_ok.mp later
        obtain ⟨bound_smart, kind, _⟩ := smart.bindPointer bound
        exact bound_smart.storePointer (.make primitive) kind stored
      | @move y usable same_kind =>
        have moved := movedFrom?_moveOf usable.named
        obtain ⟨rfl, other, rfl, source_kind⟩ :=
          smart.pointerSource? usable plain.solid (by rw [moved]; rfl) found
        rw [same_kind] at source_kind
        rw [moved] at later
        simp only [Option.isSome_some, not_true_eq_false, false_and, and_false, if_false] at later
        rw [Action.get_bind] at later
        obtain ⟨id, v, bound, assigned⟩ := Action.bind_eq_ok.mp later
        obtain ⟨bound_smart, kind, extends_⟩ := smart.bindPointer bound
        refine bound_smart.assignFrom kind (extends_.disciplines other _ source_kind) ?_ assigned
        exact nofun
      | @copy y usable source_shared dest_shared =>
        have copied := movedFrom?_of_name usable.named
        obtain ⟨rfl, other, rfl, source_kind⟩ :=
          smart.pointerSource? usable plain.solid (by rw [copied]; rfl) found
        rw [source_shared] at source_kind
        dsimp only at later
        rw [Action.get_bind, copied, if_pos ⟨by rw [dest_shared]; rfl, nofun, source_kind⟩] at later
        exact smart.bindSharedCopy dest_shared later

theorem assign (smart : s.Smart uses []) (usable : IsVariable x) {value : Text}
    (allowed : SmartValue uses (uses x) value) (done : Action.assign x value false s = .ok () t) :
    t.Smart uses [] := by
  unfold Action.assign at done
  rw [not_isIndirect_of_name usable.named, usable.named] at done
  obtain ⟨id, u, found, later⟩ := Action.bind_eq_ok.mp done
  obtain ⟨rfl, known⟩ := Action.lookup_eq_ok found
  have kind := smart.named x id known
  rw [Action.get_bind] at later
  split at later
  · exact smart.storePointer allowed kind later
  · obtain ⟨_, rfl⟩ := Action.pure_eq_ok.mp later
    exact smart

end Session.Smart

end MemoryTrace
