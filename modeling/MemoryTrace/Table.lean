namespace MemoryTrace

/-- What names mean. Each name has at most one entry, and the newest comes first. -/
abbrev Table (α : Type) := List (String × α)

namespace Table

variable {α : Type}

/-- What a name means. -/
def get? (table : Table α) (name : String) : Option α := table.lookup name

/-- Gives a name a meaning, in place of any older one. -/
def set (table : Table α) (name : String) (value : α) : Table α :=
  (name, value) :: table.filter (·.1 ≠ name)

/-- Changes the meaning of a name that has one. -/
def modify (table : Table α) (name : String) (f : α → α) : Table α :=
  table.map fun entry => if entry.1 = name then (entry.1, f entry.2) else entry

@[simp] theorem get?_nil (name : String) : get? ([] : Table α) name = none := rfl

theorem get?_cons (table : Table α) (name other : String) (value : α) :
    get? ((other, value) :: table) name = if name = other then some value else table.get? name := by
  by_cases same : name = other
  · simp [get?, same]
  · simp [get?, List.lookup_cons, same, beq_eq_false_iff_ne.mpr same]

theorem get?_filter_ne (table : Table α) {name other : String} (different : name ≠ other) :
    get? (table.filter (·.1 ≠ other)) name = table.get? name := by
  induction table with
  | nil => rfl
  | cons entry rest ih =>
    obtain ⟨key, value⟩ := entry
    by_cases kept : key = other
    · subst kept
      simp only [List.filter_cons, ne_eq, not_true_eq_false, decide_false, Bool.false_eq_true, if_false, ih]
      rw [get?_cons, if_neg different]
    · simp only [List.filter_cons, ne_eq, kept, not_false_eq_true, decide_true, if_true, get?_cons, ih]

/-- A name means what it was last set to. -/
theorem get?_set_self (table : Table α) (name : String) (value : α) :
    (table.set name value).get? name = some value := by
  simp [set, get?_cons]

/-- No other name changes its meaning. -/
theorem get?_set_ne (table : Table α) {name other : String} (value : α) (different : name ≠ other) :
    (table.set other value).get? name = table.get? name := by
  rw [set, get?_cons, if_neg different, get?_filter_ne table different]

/-- Only the meaning of the one name is changed, if it has any. -/
theorem get?_modify (table : Table α) (name other : String) (f : α → α) :
    (table.modify other f).get? name = if name = other then (table.get? name).map f else table.get? name := by
  induction table with
  | nil => simp [modify]
  | cons entry rest ih =>
    obtain ⟨key, value⟩ := entry
    have split : modify ((key, value) :: rest) other f =
        (if key = other then (key, f value) else (key, value)) :: modify rest other f := by
      simp [modify]
    rw [split]
    by_cases changed : key = other
    · subst changed
      rw [if_pos rfl, get?_cons, get?_cons, ih]
      split <;> simp_all
    · rw [if_neg changed, get?_cons, get?_cons, ih]
      by_cases asked : name = key
      · subst asked
        simp [changed]
      · simp [asked]

end Table

end MemoryTrace
