import MemoryTrace.Proofs.Memory.InPlace
import MemoryTrace.Proofs.Memory.Refusal

namespace MemoryTrace

/-- When the pointer `q` takes over the target of `p`, it gives up its own one `v`, unless that is the same block. -/
structure Pointer.GivesUp (m : Memory) (q p : Pointer) (v : Block) : Prop where
  member : v ∈ m.blocks
  aimed : q.target = some v.id
  other : p.target ≠ some v.id

/-- A block that is kept is not the one that is given up. -/
theorem Pointer.GivesUp.ne {m : Memory} {p q : Pointer} {c v : Block} (given : q.GivesUp m p v) (sound : m.Sound)
    (member : c ∈ m.blocks) (kept : ¬ q.GivesUp m p c) : c.id ≠ v.id := by
  intro same
  exact kept (sound.eq_of_id member given.member same ▸ given)

namespace Block

/-- Whether the block can spare an owner. -/
def hasSeveralOwners (b : Block) : Bool := b.owners?.any (· > 1)

/-- A variable counts no owners, so it has none to spare. -/
theorem few_of_isStack {b : Block} (stack : b.isStack) : b.hasSeveralOwners = false := by
  rw [hasSeveralOwners, owners?_of_isStack stack]
  rfl

/-- What becomes of a block when `source` hands its target to `dest`, where giving up the target of `dest` makes `f b`
of the block `b`. -/
def handing (source dest : BlockId) (target : Option BlockId) (f : Block → Block) (b : Block) : Block :=
  if b.id = source then (f b).aim none else if b.id = dest then (f b).aim target else f b

section Handing

variable {source dest : BlockId} {target : Option BlockId} {f : Block → Block} {b : Block}

/-- The giver and the taker aside, blocks are what giving up makes of them. -/
theorem handing_of_other (giver : b.id ≠ source) (taker : b.id ≠ dest) : b.handing source dest target f = f b := by
  rw [handing, if_neg giver, if_neg taker]

/-- What aiming a pointer leaves alone. -/
theorem handing_congr {α : Type} {g : Block → α} (kept : ∀ b target, g (aim b target) = g b) :
    g (b.handing source dest target f) = g (f b) := by
  unfold handing
  split
  · exact kept _ none
  · split
    · exact kept _ target
    · rfl

/-- After a move a block points to the target that was handed over or where it pointed before. -/
theorem target?_handing {id : BlockId} (aimed : (b.handing source dest target f).target? = some id) :
    target = some id ∨ (f b).target? = some id := by
  unfold handing at aimed
  split at aimed
  · exact nomatch target?_aim aimed
  · split at aimed
    · exact .inl (target?_aim aimed)
    · exact .inr aimed

end Handing

end Block

namespace Memory

variable {m : Memory} {source dest : BlockId} {giver taker : Block} {p q : Pointer}

/-- From `m` to `next`, block `taker` with the pointer `q` has taken over the target of block `giver` with the pointer
`p`, and nothing else has changed than what was given up and the pointers to that. -/
structure Transferred (m : Memory) (giver : Block) (p : Pointer) (taker : Block) (q : Pointer) (next : Memory) :
    Prop where
  source : next.block? giver.id =
    some ((if q.target = some giver.id ∧ p.target ≠ some giver.id then giver.die else giver).aim none)
  dest : next.block? taker.id =
    some ((if q.target = some taker.id ∧ p.target ≠ some taker.id then taker.die else taker).aim p.target)
  freed : ∀ v, q.GivesUp m p v → v.hasSeveralOwners = false → ¬ next.HasLive v.id ∧ next.Untargeted v.id
  cleared : ∀ v, q.GivesUp m p v → v.hasSeveralOwners = false →
    ∀ c ∈ m.blocks, c.id ≠ giver.id → c.id ≠ taker.id → c.id ≠ v.id → c.target? = some v.id →
      next.block? c.id = some (c.aim none)
  spared : ∀ v, q.GivesUp m p v → v.hasSeveralOwners → next.block? v.id = some (v.countOwners (· - 1))
  others : ∀ c ∈ m.blocks, c.id ≠ giver.id → c.id ≠ taker.id → ¬ q.GivesUp m p c →
    (∀ v, q.GivesUp m p v → v.hasSeveralOwners = false → c.target? ≠ some v.id) → next.block? c.id = some c
  owners : ∀ c ∈ m.blocks, ¬ q.GivesUp m p c → (next.block? c.id).bind (·.owners?) = c.owners?
  moved : ∀ t ∈ m.blocks, p.target = some t.id → t.id ≠ giver.id → t.id ≠ taker.id →
    (∀ v, q.target = some v → t.target? ≠ some v) → next.block? t.id = some t

/-- What becomes of each block when the pointer `q` gives up its target for that of `p`, or keeps it. -/
inductive GivingUp (m : Memory) (p q : Pointer) : (Block → Block) → Prop
  | gives {v : Block} (given : q.GivesUp m p v) : m.GivingUp p q (Block.lose v.id !v.hasSeveralOwners)
  | keeps (unlost : ∀ v, ¬ q.GivesUp m p v) : m.GivingUp p q fun c => c

theorem Sound.givingUp (sound : m.Sound) (taken : m.LivePointer dest taker q) :
    ∃ f freed, m.deallocateIfAny (q.target.filter (p.target ≠ some ·)) = .ok freed ∧
      freed.blocks = m.blocks.map f ∧ m.GivingUp p q f := by
  obtain ⟨freed, done⟩ := sound.deallocateIfAny_accepted taken (p.target ≠ some ·)
  cases lost : q.target.filter (p.target ≠ some ·) with
  | none =>
    refine ⟨_, m, rfl, (List.map_id' _).symm, .keeps fun v given => ?_⟩
    have kept := Option.filter_eq_none_iff.mp lost v.id given.aimed
    simp [given.other] at kept
  | some id =>
    obtain ⟨aimed, other⟩ := Option.filter_eq_some_iff.mp lost
    obtain ⟨v, member, rfl, live⟩ :=
      sound.targetsLive taker (block?_some taken.found).1 id (Block.target?_eq_some.mpr ⟨q, taken.holds, aimed⟩)
    rw [lost] at done
    have blocks := sound.deallocate_blocks member live done
    refine ⟨_, freed, done, ?_, .gives ⟨member, aimed, of_decide_eq_true other⟩⟩
    simpa [Block.hasSeveralOwners] using blocks

namespace GivingUp

variable {f : Block → Block} {c v : Block} (giving : m.GivingUp p q f)

include giving

theorem id (c : Block) : (f c).id = c.id := by
  cases giving with
  | gives given => exact Block.lose_id ..
  | keeps unlost => rfl

variable (sound : m.Sound) (member : c ∈ m.blocks)

include sound

/-- What is given up loses an owner, and dies unless it had several. -/
theorem eq_lose (given : q.GivesUp m p v) : f = Block.lose v.id !v.hasSeveralOwners := by
  cases giving with
  | @gives w lost =>
    have same : w = v :=
      sound.eq_of_id lost.member given.member (Option.some.inj (lost.aimed.symm.trans given.aimed))
    rw [same]
  | keeps unlost => exact absurd given (unlost v)

include member

/-- What is neither given up nor a pointer to it stays as it is. -/
theorem others (kept : ¬ q.GivesUp m p c)
    (elsewhere : ∀ v, q.GivesUp m p v → v.hasSeveralOwners = false → c.target? ≠ some v.id) : f c = c := by
  cases giving with
  | @gives v given =>
    rw [Block.lose_of_other (given.ne sound member kept)]
    simpa using elsewhere v given
  | keeps unlost => rfl

/-- Nothing but its target and its life is taken from a pointer. -/
theorem aim (stack : c.isStack) (target : Option BlockId) :
    (f c).aim target = (if q.target = some c.id ∧ p.target ≠ some c.id then c.die else c).aim target := by
  cases giving with
  | @gives v given =>
    by_cases same : c.id = v.id
    · obtain rfl := sound.eq_of_id member given.member same
      rw [if_pos ⟨given.aimed, given.other⟩, Block.few_of_isStack stack, Bool.not_false, Block.lose_true, Block.bury,
        if_pos rfl, Block.forget_aim]
    · have kept : ¬ (q.target = some c.id ∧ p.target ≠ some c.id) := fun lost =>
        same (Option.some.inj (lost.1.symm.trans given.aimed))
      rw [if_neg kept]
      cases !v.hasSeveralOwners with
      | true => rw [Block.lose_true, Block.bury, if_neg same, Block.forget_aim]
      | false => rw [Block.lose_false, if_neg same]
  | keeps unlost => rw [if_neg fun lost => unlost c ⟨member, lost.1, lost.2⟩]

theorem owners (kept : ¬ q.GivesUp m p c) : (f c).owners? = c.owners? := by
  cases giving with
  | @gives v given =>
    have other := given.ne sound member kept
    cases !v.hasSeveralOwners with
    | true => rw [Block.lose_true, Block.bury_owners?, if_neg other]
    | false => rw [Block.lose_false, if_neg other]
  | keeps unlost => rfl

end GivingUp

/-- The giver becomes null, the taker points where the giver did, and what the taker owned before is given up. Nothing
else changes. -/
theorem Sound.transferred (sound : m.Sound) (given : m.LivePointer source giver p) (taken : m.LivePointer dest taker q)
    (different : source ≠ dest) {f : Block → Block} (giving : m.GivingUp p q f) {next : Memory}
    (blocks : next.blocks = m.blocks.map (Block.handing source dest p.target f)) :
    m.Transferred giver p taker q next := by
  obtain ⟨giver_member, rfl⟩ := block?_some given.found
  obtain ⟨taker_member, rfl⟩ := block?_some taken.found
  have ids (c : Block) : (c.handing giver.id taker.id p.target f).id = c.id :=
    (Block.handing_congr Block.aim_id).trans (giving.id c)
  have becomes {c : Block} (there : c ∈ m.blocks) := sound.block?_of_map blocks ids there
  have rests {c : Block} (there : c ∈ m.blocks) (apart : c.id ≠ giver.id) (other : c.id ≠ taker.id) :
      next.block? c.id = some (f c) := by rw [becomes there, Block.handing_of_other apart other]
  have giver_stack := sound.pointersOnStack giver giver_member (Option.isSome_of_eq_some given.holds)
  have taker_stack := sound.pointersOnStack taker taker_member (Option.isSome_of_eq_some taken.holds)
  refine ⟨?_, ?_, fun v gone few => ?_, fun v gone few c there apart other buried aimed => ?_, fun v gone several => ?_,
    fun c there apart other kept elsewhere => ?_, fun c there kept => ?_, fun t there aimed apart other elsewhere => ?_⟩
  · rw [becomes giver_member, Block.handing, if_pos rfl, giving.aim sound giver_member giver_stack]
  · rw [becomes taker_member, Block.handing, if_neg different.symm, if_pos rfl,
      giving.aim sound taker_member taker_stack]
  · have buried : f = Block.bury v.id := by
      rw [giving.eq_lose sound gone, few]
      rfl
    refine ⟨not_hasLive_of_map blocks ids fun c same => ?_, untargeted_of_map blocks fun c aimed => ?_⟩
    · rw [Block.handing_congr Block.aim_live, buried]
      simp [same]
    · rcases Block.target?_handing aimed with moved | kept
      · exact gone.other moved
      · exact (Block.target?_bury.mp (buried ▸ kept)).2 rfl
  · rw [rests there apart other, giving.eq_lose sound gone, few]
    exact congrArg some (Block.bury_of_target buried aimed)
  · have apart {c : Block} (there : c ∈ m.blocks) (stack : c.isStack) : v.id ≠ c.id := fun same => by
      rw [sound.eq_of_id gone.member there same, Block.few_of_isStack stack] at several
      contradiction
    rw [rests gone.member (apart giver_member giver_stack) (apart taker_member taker_stack), giving.eq_lose sound gone,
      several, Bool.not_true, Block.lose_false, if_pos rfl]
  · rw [rests there apart other, giving.others sound there kept elsewhere]
  · rw [becomes there, Option.bind_some, Block.handing_congr Block.aim_owners?, giving.owners sound there kept]
  · rw [rests there apart other, giving.others sound there fun gone => gone.other aimed]
    exact fun v gone _ => elsewhere v.id gone.aimed

/-- A move between two live unique pointers is never refused. The giver becomes null and the taker points where the
giver did. What the taker pointed to before is freed, unless that is the same block or another owner keeps it, and no
pointer points to a freed block. Nothing else changes. -/
theorem move_exact (reach : m.Reachable) (given : m.LivePointer source giver p) (owner : p.discipline = .unique)
    (taken : m.LivePointer dest taker q) (owning : q.discipline = .unique) (different : source ≠ dest) :
    ∃ next, m.moveUnique source dest = .ok next ∧ m.Transferred giver p taker q next := by
  have sound := reach.sound
  obtain ⟨f, freed, released, blocks, giving⟩ := sound.givingUp (p := p) taken
  refine ⟨_, moveUnique_eq_ok.mpr
    ⟨different, giver, p, taker, q, freed, given, owner, taken, owning, released, rfl⟩,
    sound.transferred given taken different giving ?_⟩
  rw [record_blocks, update_blocks, update_blocks, blocks, List.map_map, List.map_map]
  refine List.map_congr_left fun c _ => ?_
  rw [Function.comp_apply, Function.comp_apply, giving.id, Block.handing]
  by_cases gives : c.id = source
  · rw [if_neg fun takes => different (gives.symm.trans takes), giving.id, if_pos gives]
  · rw [if_neg gives]
    by_cases takes : c.id = dest
    · rw [if_pos takes, Block.aim_id, giving.id, if_neg gives]
    · rw [if_neg takes, giving.id, if_neg gives]

/-- The taker owned the giver. That one is freed in the move, and still the taker gets what it pointed to. -/
theorem move_exact_of_owned_giver :
    ∃ (m next : Memory) (giver taker : Block), m.Reachable ∧ m.moveUnique 1 2 = .ok next ∧
      m.block? 1 = some giver ∧ giver.live ∧ giver.target? = some 3 ∧ m.block? 2 = some taker ∧
      taker.target? = some 1 ∧ next.block? 1 = some (giver.die.aim none) ∧ ¬ next.HasLive 1 ∧
      next.block? 2 = some (taker.aim (some 3)) ∧ next.block? 3 = m.block? 3 := by
  let m := (withCapacity 16).run [.createPointer "p" .unique none, .createPointer "q" .unique none,
    .allocate "*p" 4 .unique, .assignPointer 1 (some 3), .assignPointer 2 (some 1)]
  have reach : m.Reachable := Reachable.run (.fresh 16) _
  have sound := reach.sound
  obtain ⟨⟨giver, found, live, holds⟩, ⟨taker, there, alive, points⟩, t, member, three, null⟩ :
      (∃ b ∈ m.block? 1, b.live ∧ b.pointer? = some { discipline := .unique, target := some 3 }) ∧
        (∃ b ∈ m.block? 2, b.live ∧ b.pointer? = some { discipline := .unique, target := some 1 }) ∧
        ∃ t ∈ m.blocks, t.id = 3 ∧ t.target? = none := by decide +kernel
  obtain ⟨next, done, effect⟩ := move_exact reach ⟨found, live, holds⟩ rfl ⟨there, alive, points⟩ rfl (by decide)
  obtain ⟨giver_member, one⟩ := block?_some found
  obtain ⟨_, two⟩ := block?_some there
  have lost : Pointer.GivesUp m { discipline := .unique, target := some 1 }
      { discipline := .unique, target := some 3 } giver :=
    ⟨giver_member, congrArg some one.symm, by simp [one]⟩
  have few : giver.hasSeveralOwners = false :=
    Block.few_of_isStack (sound.pointersOnStack giver giver_member (Option.isSome_of_eq_some holds))
  refine ⟨m, next, giver, taker, reach, done, found, live, Block.target?_of_pointer? holds, there,
    Block.target?_of_pointer? points, ?_, one ▸ (effect.freed giver lost few).1, ?_, ?_⟩
  · have gone := effect.source
    rwa [if_pos (by simp [one]), one] at gone
  · have kept := effect.dest
    rwa [if_neg (by simp [two]), two] at kept
  · have kept := effect.moved t member (congrArg some three.symm) (by simp [one, three]) (by simp [two, three])
      (by simp [null])
    rw [← three, kept, sound.block?_of_mem member]

end Memory

end MemoryTrace
