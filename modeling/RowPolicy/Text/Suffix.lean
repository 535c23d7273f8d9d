/-!
# Suffixes

A run of any length at the front of a text leaves some suffix of it, so a pattern
that starts with such a run asks a question about every suffix.
-/

namespace RowPolicy.Text

/-- The list itself and everything that remains after dropping leading elements. -/
def suffixes {α : Type} : List α → List (List α)
  | [] => [[]]
  | x :: xs => (x :: xs) :: suffixes xs

@[simp] theorem mem_suffixes {α : Type} {s xs : List α} :
    s ∈ suffixes xs ↔ ∃ before, xs = before ++ s := by
  induction xs generalizing s with
  | nil => simp [suffixes, eq_comm]
  | cons x xs ih =>
      simp only [suffixes, List.mem_cons, ih]
      constructor
      · rintro (rfl | ⟨before, rfl⟩)
        · exact ⟨[], rfl⟩
        · exact ⟨x :: before, rfl⟩
      · rintro ⟨before, h⟩
        cases before with
        | nil => exact .inl h.symm
        | cons y ys =>
            obtain ⟨rfl, rfl⟩ := List.cons.inj h
            exact .inr ⟨ys, rfl⟩

end RowPolicy.Text
