import MemoryTrace.Proofs.Memory.Standing
import MemoryTrace.Proofs.Session.Keeping
import MemoryTrace.Proofs.Session.Success

namespace MemoryTrace

open Script

/-- What memory refused, where that is why the line failed. -/
def Failure.refusal? : Failure → Option MemoryError
  | .script { cause := .rejected error, .. } => some error
  | _ => none

namespace Session

variable {s t : Session} {id : BlockId} {e : Failure}

/-- The failure has changed nothing, and memory was not asked. -/
def Early (s : Session) (e : Failure) (t : Session) : Prop := e.refusal? = none ∧ t = s

/-- The pointer was its own target, and it was freed as that. -/
structure SelfFreed (s : Session) (id : BlockId) (e : Failure) (t : Session) : Prop where
  aimed : s.target? id = some id
  unshared : s.discipline? id ≠ some .shared
  refused : e.refusal? = some (.alreadyFreed id)
  gone : ¬ t.memory.HasLive id

theorem pointer?_of_held {b : Block} {p : Pointer} (held : s.memory.LivePointer id b p) : s.pointer? id = some p := by
  rw [pointer?, held.found, Option.bind_some, held.holds]

theorem target?_of_held {b : Block} {p : Pointer} (held : s.memory.LivePointer id b p) : s.target? id = p.target := by
  rw [target?, pointer?_of_held held, Option.bind_some]

theorem discipline?_of_held {b : Block} {p : Pointer} (held : s.memory.LivePointer id b p) :
    s.discipline? id = some p.discipline := by
  rw [discipline?, pointer?_of_held held, Option.map_some]

/-- A live block with a pointer in it is a live pointer. -/
theorem hasPointer_of_pointer? (alive : (s.memory.block? id).any (·.live)) (holds : (s.pointer? id).isSome) :
    ∃ d, s.memory.HasPointer d id := by
  obtain ⟨b, found, live⟩ := (Option.any_eq_true ..).mp alive
  obtain ⟨p, holds⟩ := Option.isSome_iff_exists.mp holds
  rw [pointer?, found, Option.bind_some] at holds
  exact ⟨p.discipline, b, p, ⟨found, live, holds⟩, rfl⟩

/-- Only a pointer that is its own target is freed so. -/
theorem SelfFreed.not_selfless (freed : s.SelfFreed id e t) : ¬ s.memory.Selfless := by
  intro selfless
  obtain ⟨p, known, aimed⟩ := Option.bind_eq_some_iff.mp freed.aimed
  obtain ⟨b, found, holds⟩ := Option.bind_eq_some_iff.mp known
  obtain ⟨member, rfl⟩ := Memory.block?_some found
  exact selfless b member (Block.target?_eq_some.mpr ⟨p, holds, aimed⟩)

end Session

namespace Action

variable {α β : Type} {s t : Session} {how : Failure → Session → Prop} {id : BlockId} {d : Discipline}

/-- Started in `s` the action goes through, or it fails as `how` says. -/
def FailsOnly (a : Action α) (s : Session) (how : Failure → Session → Prop) : Prop :=
  ∀ e t, a s = .error e t → how e t

/-- A name that is found denotes a live block. -/
theorem lookup_live {name : Text} (found : lookup name s = .ok id t) :
    t = s ∧ (s.memory.block? id).any (·.live) := by
  obtain ⟨same, known⟩ := lookup_eq_ok found
  refine ⟨same, ?_⟩
  unfold lookup at found
  rw [get_bind, known] at found
  dsimp only at found
  split at found
  · assumption
  · contradiction

/-- A source that is found is a live pointer. -/
theorem pointerSource?_eq_ok {text : Text} {source : Option (BlockId × Bool)}
    (found : pointerSource? text s = .ok source t) :
    t = s ∧ ∀ id moved, source = some (id, moved) → ∃ d, s.memory.HasPointer d id := by
  unfold pointerSource? at found
  split at found
  · obtain ⟨rfl, rfl⟩ := pure_eq_ok.mp found
    exact ⟨rfl, nofun⟩
  · obtain ⟨id, u, named, rest⟩ := bind_eq_ok.mp found
    obtain ⟨rfl, live⟩ := lookup_live named
    obtain ⟨rfl, rfl⟩ := pure_eq_ok.mp rest
    refine ⟨rfl, fun other moved same => ?_⟩
    split at same
    · rename_i holds
      obtain ⟨rfl, _⟩ := Prod.mk.inj (Option.some.inj same)
      exact Session.hasPointer_of_pointer? live holds
    · cases same

theorem declaration?_eq_ok {text : Text} {declared : Option (List Declarator)}
    (ran : declaration? text s = .ok declared t) : t = s := by
  have unchanged : (declaration? text).after s = s := Keeps.declaration? (I := (· = s)) text s rfl
  rwa [after_of_ok ran] at unchanged

/-- The session that remembers the error of a line is otherwise as its statement left it. -/
theorem executeLine_eq_error {line : Text} {e : Failure} (failed : executeLine line s = .error e t) :
    ∃ u lastError notes, statement line s = .error e u ∧ t = { u with lastError, notes } := by
  unfold executeLine at failed
  split at failed
  · rename_i error u ran
    cases failed
    exact ⟨u, _, _, ran, rfl⟩
  · exact ⟨t, t.lastError, t.notes, failed, rfl⟩

namespace FailsOnly

theorem of_ok {a : Action α} {x : α} (ran : a s = .ok x t) : FailsOnly a s how := by
  intro e u failed
  cases ran.symm.trans failed

protected theorem pure (x : α) : FailsOnly (Pure.pure x) s how := of_ok rfl

theorem fail {cause : Cause} (allowed : how (.script { line := s.line, cause }) s) :
    FailsOnly (Action.fail cause : Action α) s how := by
  rintro _ _ ⟨⟩
  exact allowed

protected theorem modify (f : Session → Session) : FailsOnly (modify f) s how := of_ok rfl

theorem create (operation : Memory → BlockId × Memory) : FailsOnly (create operation) s how := of_ok rfl

theorem crash {c : Crash} (allowed : how (.crash c) s) : FailsOnly (throw (.crash c) : Action α) s how := by
  rintro _ _ ⟨⟩
  exact allowed

/-- What fails only so in each part fails only so. -/
protected theorem bind {a : Action β} {f : β → Action α} (first : FailsOnly a s how)
    (rest : ∀ x t, a s = .ok x t → FailsOnly (f x) t how) : FailsOnly (a >>= f) s how := by
  intro e u failed
  simp only [bind, EStateM.bind] at failed
  split at failed
  · rename_i x t ran
    exact rest x t ran e u failed
  · rename_i e t ran
    cases failed
    exact first _ _ ran

theorem read {f : Session → Action α} (rest : FailsOnly (f s) s how) : FailsOnly (get >>= f) s how := rest

theorem mono {more : Failure → Session → Prop} {a : Action α} (fails : FailsOnly a s how)
    (allowed : ∀ e t, how e t → more e t) : FailsOnly a s more :=
  fun e t failed => allowed e t (fails e t failed)

theorem discard {a : Action α} (fails : FailsOnly a s how) : FailsOnly (discard a : Action PUnit) s how := by
  intro e t failed
  simp only [Functor.discard, Functor.mapConst, EStateM.map, Function.comp_def] at failed
  split at failed
  · contradiction
  · rename_i e t ran
    cases failed
    exact fails _ _ ran

/-- Each round fails only so, and the next one starts with what it keeps. -/
protected theorem forM {I : Session → Prop} {how : Failure → Prop} {list : List β} {f : β → Action PUnit}
    (each : ∀ x s, I s → FailsOnly (f x) s fun e _ => how e) (kept : ∀ x s t, I s → f x s = .ok () t → I t)
    (before : I s) : FailsOnly (list.forM f) s fun e _ => how e := by
  induction list generalizing s with
  | nil => exact .pure _
  | cons x rest ih => exact (each x s before).bind fun _ t ran => ih (kept x s t before ran)

theorem attempt {operation : Memory → Except MemoryError Memory}
    (accepted : ∃ next, operation s.memory = .ok next) : FailsOnly (attempt operation) s how := by
  obtain ⟨next, done⟩ := accepted
  exact of_ok (attempt_eq_ok.mpr ⟨next, done, rfl⟩)

theorem refused {operation : Memory → Except MemoryError Memory} {error : MemoryError}
    (refused : operation s.memory = .error error) (allowed : ∀ e, e.refusal? = some error → how e s) :
    FailsOnly (Action.attempt operation) s how := by
  refine .read ?_
  rw [refused]
  exact .fail (allowed _ rfl)

/-- What asks nothing of memory is not refused by it. -/
theorem plain {a : Action α} (plain : Plain a) (s : Session) : FailsOnly a s fun e _ => e.refusal? = none := by
  induction plain generalizing s with
  | pure => exact .pure _
  | note | modify => exact .modify _
  | @fail _ cause accepted =>
    refine .fail ?_
    cases cause with
    | rejected e => exact absurd rfl (accepted e)
    | _ => rfl
  | crash => exact .crash rfl
  | read _ _ ih => exact .read (ih s s)
  | bind _ _ first rest => exact (first s).bind fun x t _ => rest x t

/-- What only asks has changed nothing when it fails. -/
theorem early {crashes : Prop} {a : Action α} (asks : Asks crashes a) (s : Session) : FailsOnly a s s.Early := by
  intro e t failed
  have unchanged : a.after s = s := asks.keeps (I := (· = s)) s rfl
  rw [after_of_error failed] at unchanged
  exact ⟨plain asks.plain s e t failed, unchanged⟩

/-- A name may denote nothing, and that shows before anything is changed. -/
theorem lookup (name : Text) : FailsOnly (lookup name) s s.Early := early (.lookup name : Asks True _) s

theorem arraySize (name : String) (unit count : Nat) : FailsOnly (arraySize name unit count) s s.Early :=
  early (.arraySize name unit count : Asks True _) s

theorem declaration? (text : Text) : FailsOnly (declaration? text) s s.Early :=
  early (.declaration? (.inl trivial) : Asks True _) s

theorem pointerSource? (text : Text) : FailsOnly (pointerSource? text) s s.Early :=
  early (.pointerSource? text : Asks True _) s

/-- A brace closes a scope unless none is open. -/
theorem closeScope : FailsOnly Action.closeScope s fun e _ =>
    e = .script { line := s.line, cause := .unexpectedScopeEnd } ∧ s.scopeDepth = 0 := by
  refine .read ?_
  split
  · rename_i flat
    exact .fail ⟨rfl, flat⟩
  · split <;> exact .of_ok rfl

/-- A pointee may be of no known type or too large, and that shows before it is made. -/
theorem allocatePointee (typeText : Text) (discipline : Discipline) (owner : Text) :
    FailsOnly (allocatePointee typeText discipline owner) s s.Early := by
  have array (name : String) (unit count : Nat) : FailsOnly (do
      let size ← Action.arraySize name unit count
      Action.create (·.allocate name size discipline)) s s.Early :=
    (arraySize name unit count).bind fun _ _ _ => create _
  refine .read ?_
  split
  · exact array _ _ _
  · split
    · exact array _ _ _
    · exact create _
  · exact .fail ⟨rfl, rfl⟩

/-- A pointer lets go of its target before it is aimed elsewhere. It may be gone itself by then. -/
theorem letGo {b : Block} {p : Pointer} {owned target : Option BlockId} (sound : s.memory.Sound)
    (held : s.memory.LivePointer id b p) (own : ∀ old, owned = some old → p.target = some old ∧ p.discipline ≠ .shared)
    (live : ∀ new, target = some new → s.memory.HasLive new ∧ owned ≠ some new) :
    FailsOnly (do
      Action.attempt (·.deallocateIfAny owned)
      Action.attempt (·.assignPointer id target)) s (s.SelfFreed id) := by
  have accepted : ∃ freed, s.memory.deallocateIfAny owned = .ok freed := by
    cases owns : owned with
    | none => exact ⟨_, rfl⟩
    | some old =>
      have aimed := (Block.target?_of_pointer? held.holds).trans (own old owns).1
      exact sound.deallocate_accepted.mpr (sound.targetsLive b (Memory.block?_some held.found).1 old aimed)
  refine (FailsOnly.attempt accepted).bind fun _ t ran => ?_
  obtain ⟨freed, released, rfl⟩ := attempt_eq_ok.mp ran
  by_cases itself : owned = some id
  · rw [itself] at released
    obtain ⟨refusal, gone⟩ := sound.assignPointer_deallocated held.hasPointer released target
    obtain ⟨aimed, unshared⟩ := own id itself
    refine .refused refusal fun e refused => ⟨(Session.target?_of_held held).trans aimed, ?_, refused, gone⟩
    rwa [Session.discipline?_of_held held, Ne, Option.some.injEq]
  · obtain ⟨c, q, still, _⟩ := sound.hasPointer_deallocateIfAny held.hasPointer released itself
    refine .attempt ((sound.deallocateIfAny released).assignPointer_accepted.mpr ⟨⟨c, q, still⟩, fun new aimed => ?_⟩)
    obtain ⟨alive, other⟩ := live new aimed
    exact alive.deallocateIfAny released other

/-- A pointer that is aimed elsewhere fails only if it has freed itself. -/
theorem reseat {target : Option BlockId} (sound : s.memory.Sound) (held : s.memory.HasPointer d id)
    (live : ∀ new, target = some new → s.memory.HasLive new) : FailsOnly (reseat id target) s (s.SelfFreed id) := by
  obtain ⟨b, p, held, _⟩ := held
  refine .read (letGo sound held (fun old owns => ?_) fun new aimed => ⟨live new aimed, fun owns => ?_⟩)
  · have aimed := (Option.filter_eq_some_iff.mp owns).1
    rw [Session.discipline?_of_held held, Session.target?_of_held held] at aimed
    split at aimed
    · rename_i unique
      rw [Option.some.injEq] at unique
      exact ⟨aimed, unique ▸ nofun⟩
    · contradiction
  · have other := (Option.filter_eq_some_iff.mp owns).2
    exact of_decide_eq_true other aimed.symm

/-- A live pointer can be aimed at what is live. -/
theorem aimAt {target : Option BlockId} (sound : s.memory.Sound) (held : s.memory.HasPointer d id)
    (live : ∀ new, target = some new → s.memory.HasLive new) :
    FailsOnly (Action.attempt (·.assignPointer id target)) s how := by
  obtain ⟨b, p, held, _⟩ := held
  exact .attempt (sound.assignPointer_accepted.mpr ⟨⟨b, p, held⟩, live⟩)

theorem bindSharedCopy {source : BlockId} (name : Text) (held : s.memory.HasPointer .shared source) :
    FailsOnly (bindSharedCopy source name) s how := by
  obtain ⟨b, p, held, shared⟩ := held
  have copied : s.memory.copyShared source name.toName = .ok (_, _) :=
    Memory.copyShared_eq_ok.mpr ⟨b, p, held, shared, rfl, rfl⟩
  refine .read ?_
  rw [copied]
  exact (FailsOnly.modify _).bind fun _ _ _ => .modify _

/-- One pointer takes over from another, and nothing is in the way of that. -/
theorem assignFrom {dest source : BlockId} {d' : Discipline} (name : Text) (moved : Bool) (sound : s.memory.Sound)
    (dest_held : s.memory.HasPointer d dest) (source_held : s.memory.HasPointer d' source) :
    FailsOnly (assignFrom dest name source moved) s how := by
  have ⟨taker, q, taken, taking⟩ := dest_held
  have ⟨giver, p, given, giving⟩ := source_held
  have live (new : BlockId) (aimed : s.target? source = some new) : s.memory.HasLive new := by
    rw [Session.target?_of_held given] at aimed
    exact sound.targetsLive giver (Memory.block?_some given.found).1 new
      ((Block.target?_of_pointer? given.holds).trans aimed)
  unfold Action.assignFrom
  split
  · exact .pure _
  · rename_i different
    refine .read ?_
    rw [Session.discipline?_of_held taken, Session.discipline?_of_held given, taking, giving]
    split
    · rename_i unique_dest unique_source
      obtain rfl := Option.some.inj unique_dest
      obtain rfl := Option.some.inj unique_source
      exact .attempt (sound.moveUnique_accepted.mpr ⟨different, source_held, dest_held⟩)
    · refine (aimAt sound dest_held live).bind fun _ t ran => ?_
      obtain ⟨next, aimed, rfl⟩ := attempt_eq_ok.mp ran
      exact aimAt (sound.assignPointer aimed) (sound.hasPointer_assignPointer source_held aimed) (by nofun)
    · rename_i shared_dest shared_source
      obtain rfl := Option.some.inj shared_source
      refine (aimAt sound dest_held (by nofun)).bind fun _ t ran => ?_
      obtain ⟨next, aimed, rfl⟩ := attempt_eq_ok.mp ran
      exact bindSharedCopy name (sound.hasPointer_assignPointer source_held aimed)
    · exact aimAt sound dest_held live

/-- A value cannot be stored if it means nothing, or if the pointer has freed itself. -/
theorem storePointer (name value : Text) (sound : s.memory.Sound) (held : s.memory.HasPointer d id) :
    FailsOnly (storePointer id name value) s fun e t => s.Early e t ∨ s.SelfFreed id e t := by
  have made (typeText : Text) (discipline : Discipline) : FailsOnly (do
      let target ← Action.allocatePointee typeText discipline name
      Action.reseat id (some target)) s fun e t => s.Early e t ∨ s.SelfFreed id e t := by
    refine ((allocatePointee _ _ _).mono fun _ _ => .inl).bind fun target t ran => ?_
    obtain ⟨b, pushed, _, rfl, _⟩ := allocatePointee_eq_ok ran
    have live (new : BlockId) (aimed : some b.id = some new) : t.memory.HasLive new :=
      ⟨b, pushed.member, Option.some.inj aimed, pushed.live⟩
    refine (reseat (pushed.sound sound) (pushed.hasPointer held) live).mono fun e u freed => .inr ?_
    obtain ⟨c, p, held, _⟩ := held
    have still : t.memory.LivePointer id c p := ⟨pushed.block? held.found, held.live, held.holds⟩
    have target := (Session.target?_of_held held).trans (Session.target?_of_held still).symm
    have discipline := (Session.discipline?_of_held held).trans (Session.discipline?_of_held still).symm
    exact ⟨target.trans freed.aimed, discipline ▸ freed.unshared, freed.refused, freed.gone⟩
  refine .read ?_
  split
  · exact (reseat sound held (by nofun)).mono fun _ _ => .inr
  · split
    · exact made _ _
    · split
      · split
        · exact made _ _
        · exact .fail (.inl ⟨rfl, rfl⟩)
      · split
        · refine ((lookup _).mono fun _ _ => .inl).bind fun target t found => ?_
          obtain ⟨rfl, live⟩ := lookup_live found
          obtain ⟨b, found, live⟩ := (Option.any_eq_true ..).mp live
          refine aimAt sound held fun new aimed => ?_
          obtain rfl := Option.some.inj aimed
          exact Memory.hasLive_of_block? found live
        · refine ((pointerSource? _).mono fun _ _ => .inl).bind fun source t found => ?_
          obtain ⟨rfl, pointers⟩ := pointerSource?_eq_ok found
          split
          · rename_i other moved
            obtain ⟨_, source_held⟩ := pointers other moved rfl
            exact assignFrom name moved sound held source_held
          · exact .modify _

/-- An assignment fails before it has changed anything, or because the pointer has freed itself. -/
theorem assign (target value : Text) (compound : Bool) (sound : s.memory.Sound) :
    FailsOnly (assign target value compound) s fun e t => s.Early e t ∨ ∃ id, s.SelfFreed id e t := by
  unfold Action.assign
  split
  · split
    · exact .pure _
    · exact ((lookup _).mono fun _ _ => .inl).discard
  · split
    · exact .modify _
    · refine ((lookup _).mono fun _ _ => .inl).bind fun id t found => ?_
      obtain ⟨rfl, live⟩ := lookup_live found
      refine .read ?_
      split
      · rename_i holds
        obtain ⟨_, held⟩ := Session.hasPointer_of_pointer? live holds
        exact (storePointer _ _ sound held).mono fun _ _ fails => fails.imp_right fun freed => ⟨id, freed⟩
      · exact .pure _

/-- A `delete` fails before it has changed anything, but for one case: a pointer may point to itself, and then it is
freed as its own target before it can be aimed elsewhere. -/
theorem delete (line : Text) (sound : s.memory.Sound) :
    FailsOnly (delete line) s fun e t => s.Early e t ∨ ∃ id, s.SelfFreed id e t := by
  unfold Action.delete
  dsimp only
  split
  · exact .fail (.inl ⟨rfl, rfl⟩)
  · refine ((lookup _).mono fun _ _ => .inl).bind fun id t found => ?_
    obtain ⟨rfl, live⟩ := lookup_live found
    refine .read ?_
    split
    · exact .fail (.inl ⟨rfl, rfl⟩)
    · rename_i p holds
      split
      · exact .fail (.inl ⟨rfl, rfl⟩)
      · rename_i target aimed
        obtain ⟨_, b, q, held, _⟩ := Session.hasPointer_of_pointer? live (Option.isSome_of_eq_some holds)
        obtain rfl := Option.some.inj (holds.symm.trans (Session.pointer?_of_held held))
        refine (letGo sound held (fun old owns => ?_) (by nofun)).mono fun _ _ freed => .inr ⟨id, freed⟩
        split at owns
        · cases owns
        · rename_i unshared
          exact ⟨aimed.trans owns, unshared⟩

end FailsOnly

end Action

end MemoryTrace
