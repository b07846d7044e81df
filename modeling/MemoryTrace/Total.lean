namespace MemoryTrace

/-- The sum of a measure over a list. -/
def total {α : Type} (measure : α → Nat) : List α → Nat
  | [] => 0
  | x :: rest => measure x + total measure rest

variable {α : Type} (measure : α → Nat)

@[simp] theorem total_nil : total measure [] = 0 := rfl

@[simp] theorem total_cons (x : α) (rest : List α) : total measure (x :: rest) = measure x + total measure rest := rfl

@[simp] theorem total_append (first second : List α) :
    total measure (first ++ second) = total measure first + total measure second := by
  induction first with
  | nil => simp
  | cons x rest ih => simp [ih, Nat.add_assoc]

end MemoryTrace
