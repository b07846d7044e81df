import MemoryTrace.Proofs.Memory.InPlace
import MemoryTrace.Proofs.Script.SmartLine
import MemoryTrace.Proofs.Session.Identifiers
import MemoryTrace.Proofs.Session.Names
import MemoryTrace.Proofs.Session.OneLineClass
import MemoryTrace.Proofs.Session.Outcome

namespace MemoryTrace

open Script Text

namespace Script

/-- The operator that deletes a block, or an array. -/
def deleteWord (array : Bool) : Text := if array then "delete[]".toList else "delete".toList

/-- A line that deletes what `name` points to. -/
def deleteLine (array : Bool) (name : Text) : Text := deleteWord array ++ ' ' :: (name ++ [';'])

variable (array : Bool) {name : Text}

theorem deleteWord_solid : ∀ c ∈ deleteWord array, ¬ isBlank c ∧ c ≠ ';' ∧ c ≠ '{' ∧ c ≠ '}' := by
  cases array <;> simp [deleteWord, isBlank, inRanges, blankRanges]

theorem head?_tokens_deleteLine (name : Text) : (tokens (deleteLine array name)).head? = some (deleteWord array) := by
  rw [deleteLine, tokens_cons (by cases array <;> decide) (deleteWord_solid array)]
  rfl

/-- Inside `main` the line is taken for a `delete`. -/
theorem classify_deleteLine {s : Session} (inside : s.inMain) (closed : s.openClass = none) (name : Text) :
    s.classify (deleteLine array name) = .ok .delete := by
  have first := head?_tokens_deleteLine array name
  have plain (words : List String) (other : words.any (·.toList = deleteWord array) = false) :
      firstTokenIs words (deleteLine array name) = false := by
    rwa [firstTokenIs, first, Option.any_some]
  have no_class : isClassHeader (deleteLine array name) = false := by
    rw [isClassHeader, plain _ (by cases array <;> decide), Bool.false_and]
  have no_return : firstTokenIs ["return"] (deleteLine array name) = false := plain _ (by cases array <;> decide)
  have head : (deleteLine array name).head? = some 'd' := by cases array <;> rfl
  have last : (deleteLine array name).getLast? = some ';' := by
    rw [deleteLine, ← List.cons_append, ← List.append_assoc, List.getLast?_concat]
  have deletes : isDelete (deleteLine array name) := by
    rw [isDelete, first]
    cases array <;> decide
  simp [Session.classify, no_class, closed, inside, no_return, head, last, deletes]

/-- Both operators are taken off the name. -/
theorem deletedName_deleteLine (named : isName name) : Action.deletedName (deleteLine array name) = name := by
  obtain ⟨c, rest, rfl, start, _⟩ := isName_cons named
  have solid : isBlank c = false := isBlank_of_isNameChar (isNameChar_of_isNameStart start)
  have statement := trimStatement_ended (bounded_of_isName named)
  cases array with
  | true =>
    have cut : Action.deletedName (deleteLine true (c :: rest)) = trimStatement (' ' :: (c :: rest ++ [';'])) := rfl
    rw [cut, trimStatement_blank_cons, statement]
  | false =>
    have no_bracket : '[' ∉ c :: rest ++ [';'] := by
      rw [List.mem_append, not_or]
      exact ⟨not_mem_of_isName named (by decide), by decide⟩
    have behind : trimStart (' ' :: (c :: rest ++ [';'])) = c :: rest ++ [';'] := by
      rw [trimStart, List.dropWhile_cons_of_pos (by decide)]
      exact trimStart_of_head solid
    have cut : Action.deletedName (deleteLine false (c :: rest)) =
        trimStatement (((trimStart (' ' :: (c :: rest ++ [';']))).afterStart? "[]").getD
          (trimStart (' ' :: (c :: rest ++ [';'])))) := rfl
    rw [cut, behind, afterStart?_of_absent (c := '[') (by decide) no_bracket]
    exact statement

end Script

namespace Memory

/-- From `m` to `next`, block `t` has been freed and every pointer to it has become null. Nothing else has changed. -/
structure Frees (m : Memory) (t : Block) (next : Memory) : Prop where
  ids : next.blocks.map (·.id) = m.blocks.map (·.id)
  freed : next.block? t.id = some (t.die.forget t.id)
  cleared : ∀ c ∈ m.blocks, c.id ≠ t.id → c.target? = some t.id → next.block? c.id = some (c.aim none)
  others : ∀ c ∈ m.blocks, c.id ≠ t.id → c.target? ≠ some t.id → next.block? c.id = some c

/-- Freeing a block of a sound registry frees that and makes the pointers to it null. -/
theorem Sound.frees {m : Memory} (sound : m.Sound) {t : Block} (member : t ∈ m.blocks) (reason : String) :
    m.Frees t (m.free t reason) := by
  have becomes {c : Block} (there : c ∈ m.blocks) : (m.free t reason).block? c.id = some (c.bury t.id) :=
    sound.block?_of_map (free_blocks m t reason) (Block.bury_id t.id) there
  refine ⟨?_, ?_, fun c there other aimed => ?_, fun c there other elsewhere => ?_⟩
  · rw [free_blocks, List.map_map]
    exact List.map_congr_left fun c _ => c.bury_id t.id
  · rw [becomes member, Block.bury, if_pos rfl]
  · rw [becomes there, Block.bury_of_target other aimed]
  · rw [becomes there, Block.bury_of_elsewhere other elsewhere]

variable {m : Memory} {id : BlockId} {b t : Block} {p : Pointer}

theorem LivePointer.free (held : m.LivePointer id b p) (other : id ≠ t.id) (aimed : p.target = some t.id)
    (reason : String) :
    (m.free t reason).LivePointer id (b.bury t.id) (p.without t.id) ∧ (p.without t.id).target = none :=
  ⟨held.bury (free_blocks m t reason) other, by simp [Pointer.without, aimed, Option.filter]⟩

end Memory

namespace Action

variable {s : Session} {p : Text} {id : BlockId} {b : Block} {r : Pointer} (array : Bool)
  (named : isName p) (bound : s.named? p = some id) (held : s.memory.LivePointer id b r)

include named bound held

/-- What `delete` does is decided by the pointer that the name denotes. -/
theorem delete_of_held : delete (deleteLine array p) s =
    (match r.target with
      | none => fail (.nullDelete p.toName)
      | some target => do
        attempt (·.deallocateIfAny (if r.discipline = Discipline.shared then none else some target))
        attempt (·.assignPointer id none)) s := by
  have alive : (s.memory.block? id).any (·.live) := by rw [held.found, Option.any_some, held.live]
  have found : lookup p s = .ok id s := by rw [lookup_of_named bound, if_pos alive]
  unfold delete
  simp only [deletedName_deleteLine array named, named, Bool.not_true, Bool.false_eq_true, if_false]
  rewrite [bind_of_ok found, get_bind, Session.pointer?_of_held held]
  rfl

/-- A null pointer cannot be deleted. -/
theorem delete_of_null (null : r.target = none) :
    delete (deleteLine array p) s = .error (.script { line := s.line, cause := .nullDelete p.toName }) s := by
  rw [delete_of_held array named bound held, null]
  rfl

/-- A pointer that owns alone frees its target. -/
theorem delete_of_alone {t : Block} (owner : r.discipline ≠ .shared)
    (aimed : r.target = some t.id) (found : s.memory.block? t.id = some t) (live : t.live)
    (few : ¬ t.owners?.any (· > 1)) (other : id ≠ t.id) :
    delete (deleteLine array p) s = .ok () { s with memory := s.memory.free t "freed" } := by
  obtain ⟨still, null⟩ := held.free other aimed "freed"
  have freed : attempt (·.deallocateIfAny (some t.id)) s = .ok () { s with memory := s.memory.free t "freed" } :=
    attempt_eq_ok.mpr ⟨_, Memory.deallocate_eq_ok.mpr ⟨t, found, live, (if_neg few).symm⟩, rfl⟩
  have nulled : (s.memory.free t "freed").assignPointer id none = .ok (s.memory.free t "freed") :=
    Memory.assignPointer_eq_ok.mpr ⟨_, _, still, nofun, (if_pos null).symm⟩
  rw [delete_of_held array named bound held, aimed]
  dsimp only
  rw [if_neg owner, bind_of_ok freed]
  exact attempt_eq_ok.mpr ⟨_, nulled, rfl⟩

end Action

namespace Action

variable {s t : Session} {array : Bool} {p : Text}

theorem executeLine_deleteLine (inside : s.inMain) (closed : s.openClass = none)
    (ran : delete (deleteLine array p) (s.note (.running .delete (deleteLine array p).toName)) = .ok () t) :
    executeLine (deleteLine array p) s = .ok () t :=
  executeLine_of_statement ((statement_of_classify (classify_deleteLine array inside closed p)).trans ran)

theorem executeLine_deleteLine_fails (inside : s.inMain) (closed : s.openClass = none) {e : ScriptError}
    (failed : delete (deleteLine array p) (s.note (.running .delete (deleteLine array p).toName)) =
      .error (.script e) t) :
    executeLine (deleteLine array p) s = .error (.script e) ({ t with lastError := some e }.note (.failed e)) := by
  have stated := (statement_of_classify (classify_deleteLine array inside closed p)).trans failed
  unfold executeLine
  rw [stated]

end Action

/-- A line that deletes through a raw or unique pointer frees the target, whatever that is, unless several owners share
it, and makes every pointer to it null, whoever owned it. All other blocks stay as they are. After that, a line that
deletes through any of these pointers is told that it is null, and leaves memory alone. -/
theorem delete_frees_once {s : Session} (reach : s.Reachable) (inside : s.inMain) (closed : s.openClass = none)
    {p : Text} {id : BlockId} {b t : Block} {r : Pointer} (bound : s.named? p = some id)
    (held : s.memory.LivePointer id b r) (owner : r.discipline ≠ .shared) (member : t ∈ s.memory.blocks)
    (aimed : r.target = some t.id) (other : t.id ≠ id) (few : ¬ t.owners?.any (· > 1)) (array : Bool) :
    ∃ u, Action.executeLine (deleteLine array p) s = .ok () u ∧ s.memory.Frees t u.memory ∧ ¬ u.memory.HasLive t.id ∧
      ∀ (q : Text) (qid : BlockId) (c : Block) (o : Pointer), s.named? q = some qid → s.memory.LivePointer qid c o →
        qid ≠ t.id → o.target = some t.id → ∀ again : Bool, ∃ v,
          Action.executeLine (deleteLine again q) u =
            .error (.script { line := u.line, cause := .nullDelete q.toName }) v ∧
          v.memory = u.memory := by
  have sound := reach.sound.memory
  have identified {name : Text} {id : BlockId} (bound : s.named? name = some id) : isName name := by
    have spelled := reach.identified _ _ bound
    rwa [toList_toName] at spelled
  have live : t.live := by
    obtain ⟨t', there, same, live⟩ :=
      sound.targetsLive b (Memory.block?_some held.found).1 t.id (Block.target?_eq_some.mpr ⟨r, held.holds, aimed⟩)
    exact sound.eq_of_id there member same ▸ live
  let noted := s.note (.running .delete (deleteLine array p).toName)
  let u : Session := { noted with memory := s.memory.free t "freed" }
  have done : Action.delete (deleteLine array p) noted = .ok () u :=
    Action.delete_of_alone (s := noted) array (identified bound) bound held owner aimed (sound.block?_of_mem member)
      live few other.symm
  refine ⟨u, Action.executeLine_deleteLine inside closed done, sound.frees member "freed",
    s.memory.not_hasLive_free t "freed", fun q qid c o denoted held apart aimed again => ?_⟩
  obtain ⟨still, null⟩ := held.free apart aimed "freed"
  have failed := Action.delete_of_null (s := u.note (.running .delete (deleteLine again q).toName)) again
    (identified denoted) denoted still null
  exact ⟨_, Action.executeLine_deleteLine_fails (s := u) inside closed failed, rfl⟩

/-- A copy of the pointer is an alias, and finds nothing left to delete. -/
theorem delete_frees_once_of_alias :
    ∃ s u v : Session, s.Reachable ∧ s.target? 1 = some 2 ∧ s.target? 3 = some 2 ∧
      Action.executeLine "delete p;".toList s = .ok () u ∧ ¬ u.memory.HasLive 2 ∧
      Action.executeLine "delete[] q;".toList u = .error (.script { line := u.line, cause := .nullDelete "q" }) v ∧
      v.memory = u.memory := by
  obtain ⟨s, reach, inside, closed, p, q, ⟨b, found, live, holds⟩, ⟨c, copied, alive, points⟩, t, member, two, few⟩ :
      ∃ s : Session, s.Reachable ∧ s.inMain ∧ s.openClass = none ∧ s.named? "p".toList = some 1 ∧
        s.named? "q".toList = some 3 ∧
        (∃ b ∈ s.memory.block? 1, b.live ∧ b.pointer? = some { discipline := .raw, target := some 2 }) ∧
        (∃ c ∈ s.memory.block? 3, c.live ∧ c.pointer? = some { discipline := .raw, target := some 2 }) ∧
        ∃ t ∈ s.memory.blocks, t.id = 2 ∧ t.owners? = none :=
    ⟨(Action.execute "int main() \x7b\n  int* p = new int;\n  int* q = p;\n".toList).after {}, .script _ .fresh,
      by decide +kernel⟩
  have held : s.memory.LivePointer 1 b _ := ⟨found, live, holds⟩
  have shares : s.memory.LivePointer 3 c _ := ⟨copied, alive, points⟩
  obtain ⟨u, deleted, _, gone, again⟩ := delete_frees_once reach inside closed p held nofun member
    (congrArg some two.symm) (by simp [two]) (by simp [few]) false
  obtain ⟨v, refused, same⟩ := again "q".toList 3 c _ q shares (by simp [two]) (congrArg some two.symm) true
  exact ⟨s, u, v, reach, s.target?_of_held held, s.target?_of_held shares, deleted, two ▸ gone, refused, same⟩

end MemoryTrace
