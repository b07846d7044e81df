import MemoryTrace.Proofs.Memory.Registry

namespace MemoryTrace

/-- Whether the pointer is of discipline `d` and points to `id`. -/
def Pointer.holds (d : Discipline) (id : BlockId) (p : Pointer) : Bool :=
  p.discipline = d ∧ p.target = some id

namespace Block

/-- Whether this is a live pointer of discipline `d` to `id`. -/
def holds (d : Discipline) (id : BlockId) (b : Block) : Bool := b.live && b.pointer?.any (·.holds d id)

/-- To share the ownership of a block is to hold it as a shared pointer. -/
theorem sharesOwnershipOf_eq (b : Block) (id : BlockId) :
    b.sharesOwnershipOf id = b.holds .shared id :=
  rfl

/-- A block holds another where it is live and its pointer does. -/
theorem holds_iff {d : Discipline} {id : BlockId} {b : Block} :
    b.holds d id ↔ b.live ∧ ∃ p, b.pointer? = some p ∧ p.discipline = d ∧ p.target = some id := by
  simp [holds, Pointer.holds, Option.any_eq_true]

theorem target?_of_holds {d : Discipline} {id : BlockId} {b : Block} (held : b.holds d id) :
    b.target? = some id := by
  obtain ⟨_, p, pointer, _, aimed⟩ := holds_iff.mp held
  exact target?_eq_some.mpr ⟨p, pointer, aimed⟩

theorem holds_congr {a b : Block} (live : a.live = b.live) (content : a.content = b.content)
    (d : Discipline) (id : BlockId) : a.holds d id = b.holds d id := by
  simp [holds, pointer?, live, content]

theorem holds_of_pointer? {b : Block} {p : Pointer} (live : b.live) (pointer : b.pointer? = some p)
    (d : Discipline) (id : BlockId) : b.holds d id = p.holds d id := by
  simp [holds, live, pointer]

/-- A live pointer holds its target once, and nothing else. -/
theorem count_target {b : Block} {p : Pointer} (live : b.live) (pointer : b.pointer? = some p)
    {d : Discipline} (kind : p.discipline = d) (id : BlockId) :
    (b.holds d id).toNat = p.target.toList.count id := by
  rw [holds_of_pointer? live pointer, Pointer.holds, kind]
  cases p.target with
  | none => simp
  | some other => by_cases same : other = id <;> simp [same]

theorem holds_of_plain {b : Block} (plain : b.pointer? = none) (d : Discipline) (id : BlockId) :
    b.holds d id = false := by
  simp [holds, plain]

theorem holds_of_other {b : Block} {p : Pointer} (pointer : b.pointer? = some p) {d : Discipline}
    (other : p.discipline ≠ d) (id : BlockId) : b.holds d id = false := by
  simp [holds, Pointer.holds, pointer, other]

theorem holds_of_dead {b : Block} (dead : ¬ b.live) (d : Discipline) (id : BlockId) :
    b.holds d id = false := by
  simp [holds, dead]

theorem holds_of_unaimed {b : Block} (unaimed : b.target? = none) (d : Discipline) (id : BlockId) :
    b.holds d id = false := by
  refine Bool.eq_false_iff.mpr fun held => ?_
  have aimed := target?_of_holds held
  rw [unaimed] at aimed
  contradiction

theorem holds_aim_none (b : Block) (d : Discipline) (id : BlockId) :
    (b.aim none).holds d id = false := by
  refine holds_of_unaimed (Option.eq_none_iff_forall_ne_some.mpr fun other aimed => ?_) d id
  have same := target?_aim aimed
  contradiction

/-- After a burial the others hold what they held, but for the buried block. -/
theorem holds_bury (gone : BlockId) (b : Block) (d : Discipline) (id : BlockId) :
    (b.bury gone).holds d id = (b.holds d id && (b.id ≠ gone && id ≠ gone)) := by
  rw [Bool.eq_iff_iff]
  simp only [Bool.and_eq_true, holds_iff, bury_live, bury_pointer?, decide_eq_true_eq]
  constructor
  · rintro ⟨⟨live, other⟩, _, held, kind, aimed⟩
    obtain ⟨p, pointer, rfl⟩ := Option.map_eq_some_iff.mp held
    obtain ⟨aimed, different⟩ := Pointer.without_target.mp aimed
    exact ⟨⟨live, p, pointer, kind, aimed⟩, other, different⟩
  · rintro ⟨⟨live, p, pointer, kind, aimed⟩, other, different⟩
    have kept := Pointer.without_target.mpr ⟨aimed, different⟩
    exact ⟨⟨live, other⟩, p.without gone, by simp [pointer], kind, kept⟩

end Block

/-- Changing one of the blocks changes a count by what that block alone contributes. -/
theorem countP_update {blocks : List Block} (distinct : (blocks.map (·.id)).Nodup) {b : Block}
    (member : b ∈ blocks) (f : Block → Block) (q : Block → Bool) :
    (blocks.map fun c => if c.id = b.id then f c else c).countP q + (q b).toNat =
      blocks.countP q + (q (f b)).toNat := by
  induction blocks with
  | nil => contradiction
  | cons first rest ih =>
    rw [List.map_cons, List.nodup_cons] at distinct
    simp only [List.map_cons, List.countP_cons]
    rcases List.mem_cons.mp member with rfl | later
    · have others : rest.map (fun c => if c.id = b.id then f c else c) = rest.map id := by
        refine List.map_congr_left fun c there => if_neg fun same => ?_
        exact distinct.1 (same ▸ List.mem_map_of_mem there)
      rw [others, List.map_id, if_pos rfl]
      cases q b <;> cases q (f b) <;> simp
    · have counted := ih distinct.2 later
      have different : first.id ≠ b.id := fun same => distinct.1 (same ▸ List.mem_map_of_mem later)
      rw [if_neg different]
      omega

namespace Memory

/-- How many live pointers of discipline `d` point to `id`. -/
def holders (m : Memory) (d : Discipline) (id : BlockId) : Nat := m.blocks.countP (·.holds d id)

/-- A block has holders where a pointer holds it. -/
theorem holders_pos {m : Memory} {d : Discipline} {id : BlockId} :
    0 < m.holders d id ↔ ∃ b ∈ m.blocks, b.holds d id :=
  List.countP_pos_iff

/-- No pointer, dead or alive, points to `id`. -/
def Untargeted (m : Memory) (id : BlockId) : Prop := ∀ b ∈ m.blocks, b.target? ≠ some id

variable {m next : Memory} {d : Discipline} {id : BlockId}

theorem holders_congr (blocks : next.blocks = m.blocks) (d : Discipline) (id : BlockId) :
    next.holders d id = m.holders d id := by
  rw [holders, blocks, holders]

theorem holders_eq_zero (untargeted : m.Untargeted id) : m.holders d id = 0 := by
  refine List.countP_eq_zero.mpr fun b member held => ?_
  exact untargeted b member (Block.target?_of_holds held)

/-- A change that leaves contents and lives alone leaves the holders alone. -/
theorem holders_map {f : Block → Block} (blocks : next.blocks = m.blocks.map f)
    (live : ∀ b, (f b).live = b.live) (content : ∀ b, (f b).content = b.content) :
    next.holders d id = m.holders d id := by
  rw [holders, blocks, List.countP_map, holders]
  refine List.countP_congr fun b _ => ?_
  rw [Function.comp_apply, Block.holds_congr (live b) (content b)]

theorem holders_countOwners {pointer : BlockId} {f : Nat → Nat}
    (blocks : next.blocks = (m.update pointer (Block.countOwners f)).blocks) :
    next.holders d id = m.holders d id := by
  refine holders_map blocks (fun b => ?_) fun b => ?_
  · split <;> simp
  · split <;> simp

theorem holders_push {b : Block} (blocks : next.blocks = m.blocks ++ [b]) :
    next.holders d id = m.holders d id + (b.holds d id).toNat := by
  rw [holders, blocks, List.countP_append, holders]
  cases held : b.holds d id <;> simp [held]

namespace Sound

variable (sound : m.Sound)

include sound

/-- A change of one block changes the number of holders by what that block contributes. -/
theorem holders_update {b : Block} (member : b ∈ m.blocks) (f : Block → Block) (d : Discipline)
    (id : BlockId) :
    (m.update b.id f).holders d id + (b.holds d id).toNat =
      m.holders d id + ((f b).holds d id).toNat :=
  countP_update sound.distinct member f _

/-- A block that was pushed last is held by nobody. -/
theorem holders_next (d : Discipline) : m.holders d m.nextId = 0 := by
  refine holders_eq_zero fun b member aimed => ?_
  exact Nat.lt_irrefl _ (sound.target_lt_next member aimed)

/-- A freed block holds nothing any more. -/
theorem holders_bury {b : Block} (member : b ∈ m.blocks)
    (blocks : next.blocks = m.blocks.map (Block.bury b.id)) (different : id ≠ b.id) :
    next.holders d id + (b.holds d id).toNat = m.holders d id := by
  have dead := sound.holders_update member (fun c => { c with live := false }) d id
  have same : (m.update b.id fun c => { c with live := false }).holders d id = next.holders d id := by
    rw [holders, update_blocks, List.countP_map, holders, blocks, List.countP_map]
    refine List.countP_congr fun c _ => ?_
    rw [Function.comp_apply, Function.comp_apply, Block.holds_bury]
    by_cases this : c.id = b.id <;> simp [this, different, Block.holds]
  have nothing : Block.holds d id { b with live := false } = false := by simp [Block.holds]
  rw [same, nothing] at dead
  exact dead

end Sound

end Memory

end MemoryTrace
