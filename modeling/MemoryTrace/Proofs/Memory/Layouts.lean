import MemoryTrace.Proofs.Memory.Frozen

namespace MemoryTrace

/-- The layout that an operation puts on record. A copy has that of its source. -/
def Operation.layout? : Operation → Option ClassLayout
  | .createPointer _ _ pointee => pointee
  | .createObject _ layout | .allocateObject _ layout _ => some layout
  | _ => none

/-- The layout of a pointer is that of what it was declared to point to. -/
theorem Block.layout?_of_pointer? {b : Block} {p : Pointer} (holds : b.pointer? = some p) : b.layout? = p.pointee := by
  unfold pointer? at holds
  unfold layout?
  split at holds
  · rename_i q content
    rw [content, Option.some.inj holds]
  · contradiction

namespace Memory

variable {m next : Memory}

/-- The layouts of all the objects there ever were, and of all that pointers were declared to point to. -/
def layouts (m : Memory) : List ClassLayout := m.blocks.filterMap (·.layout?)

theorem mem_layouts {layout : ClassLayout} : layout ∈ m.layouts ↔ ∃ b ∈ m.blocks, b.layout? = some layout :=
  List.mem_filterMap

theorem mem_layouts_push {b : Block} (blocks : next.blocks = m.blocks ++ [b]) {layout : ClassLayout}
    (there : layout ∈ next.layouts) : layout ∈ m.layouts ∨ b.layout? = some layout := by
  obtain ⟨c, member, holds⟩ := mem_layouts.mp there
  rw [blocks] at member
  rcases List.mem_append.mp member with old | new
  · exact .inl (mem_layouts.mpr ⟨c, old, holds⟩)
  · exact .inr (List.mem_singleton.mp new ▸ holds)

/-- What blocks were made as does not change. -/
theorem CarriesAll.layouts_subset (carried : m.CarriesAll next) : next.layouts ⊆ m.layouts := by
  obtain ⟨f, blocks, carries⟩ := carried
  intro layout there
  obtain ⟨c, member, holds⟩ := mem_layouts.mp there
  rw [blocks] at member
  obtain ⟨b, old, rfl⟩ := List.mem_map.mp member
  rw [Block.of_form Block.form_layout? (carries b old).form] at holds
  exact mem_layouts.mpr ⟨b, old, holds⟩

theorem layouts_pushCopy_subset (sound : m.Sound) {source : BlockId} {b : Block} {p : Pointer}
    (held : m.LivePointer source b p) (name : String) : (m.pushCopy b p name).layouts ⊆ m.layouts := by
  intro layout there
  have given {c : Block} (holds : c.pointer? = some p) (new : c.layout? = some layout) : layout ∈ m.layouts := by
    rw [Block.layout?_of_pointer? holds, ← Block.layout?_of_pointer? held.holds] at new
    exact mem_layouts.mpr ⟨b, (block?_some held.found).1, new⟩
  cases aimed : p.target with
  | none =>
    unfold Memory.pushCopy at there
    rw [aimed] at there
    rcases mem_layouts_push rfl there with old | new
    · exact old
    · exact given rfl new
  | some id =>
    have alive := sound.targetsLive b (block?_some held.found).1 id
      ((Block.target?_of_pointer? held.holds).trans aimed)
    have counted : m.CarriesAll (m.retain id) := (CarriesAll.refl m).countOwners sound alive rfl
    obtain ⟨c, blocks, _, _, _, holds⟩ := pushCopy_blocks m b aimed name
    rcases mem_layouts_push blocks there with old | new
    · exact counted.layouts_subset old
    · exact given holds new

/-- A layout on record was there before, or it comes with the operation. Layouts are laid out by the operation that
made a block, or by the one that made the block it is a copy of. -/
theorem mem_layouts_perform (sound : m.Sound) {operation : Operation} {layout : ClassLayout}
    (there : layout ∈ (m.perform operation).2.layouts) : layout ∈ m.layouts ∨ operation.layout? = some layout := by
  have stays : m.layouts ⊆ m.layouts := List.Subset.refl _
  cases operation with
  | createVariable | createPointer | createObject | allocate | allocateObject => exact mem_layouts_push rfl there
  | deallocate id =>
    exact .inl (settle_keeps (·.layouts ⊆ m.layouts) stays
      (fun _ done => ((CarriesAll.refl m).deallocate sound done).layouts_subset) there)
  | assignPointer pointer target =>
    exact .inl (settle_keeps (·.layouts ⊆ m.layouts) stays
      (fun _ done => (CarriesAll.assignPointer sound done).layouts_subset) there)
  | copyShared source name =>
    exact .inl (perform_copyShared_keeps (·.layouts ⊆ m.layouts) stays
      (fun _ _ held _ => layouts_pushCopy_subset sound held name) there)
  | moveUnique source dest =>
    exact .inl (settle_keeps (·.layouts ⊆ m.layouts) stays
      (fun _ done => (CarriesAll.moveUnique sound done).layouts_subset) there)
  | endScope =>
    exact .inl (perform_endScope_keeps (·.layouts ⊆ m.layouts) stays
      (fun b member live _ => (CarriesAll.leaveScope sound ⟨b, member, rfl, live⟩).layouts_subset) there)
  | reportLeaks =>
    rw [Memory.layouts, perform, reportLeaks_keeps blocks (fun _ _ _ _ => rfl) m] at there
    exact .inl there
  | tick => exact .inl ((CarriesAll.tick m).layouts_subset there)
  | reset => exact nomatch there

end Memory

end MemoryTrace
