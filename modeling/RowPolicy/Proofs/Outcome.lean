import Mathlib.Data.List.Forall2
import RowPolicy.Query.Error

/-!
# Results that may fail

A computation in steps succeeds exactly if every step does. These laws take such a
computation apart without unfolding it.
-/

namespace RowPolicy

namespace Outcome

variable {ε α β : Type}

theorem bind_eq_ok {x : Except ε α} {f : α → Except ε β} {b : β} :
    (x >>= f) = .ok b ↔ ∃ a, x = .ok a ∧ f a = .ok b := by
  cases x with
  | error e => simp [bind, Except.bind]
  | ok a => simp [bind, Except.bind]

theorem map_eq_ok {x : Except ε α} {f : α → β} {b : β} :
    (f <$> x) = .ok b ↔ ∃ a, x = .ok a ∧ f a = b := by
  cases x with
  | error e => simp [Functor.map, Except.map]
  | ok a => simp [Functor.map, Except.map]

theorem mapError_eq_ok {ε' : Type} {x : Except ε α} {f : ε → ε'} {a : α} :
    x.mapError f = .ok a ↔ x = .ok a := by
  cases x with
  | error e => simp [Except.mapError]
  | ok a => simp [Except.mapError]

theorem pure_eq_ok {a b : α} : (pure a : Except ε α) = .ok b ↔ a = b := by
  simp [pure, Except.pure]

/-- Doing something for every element succeeds if it does for each of them. -/
theorem mapM_eq_ok {f : α → Except ε β} {as : List α} {bs : List β} :
    as.mapM f = .ok bs ↔ List.Forall₂ (fun a b => f a = .ok b) as bs := by
  induction as generalizing bs with
  | nil => simp [pure, Except.pure, eq_comm]
  | cons a as ih =>
      simp only [List.mapM_cons, bind_eq_ok, pure_eq_ok, ih, List.forall₂_cons_left_iff]
      constructor
      · rintro ⟨b, hb, rest, hrest, rfl⟩
        exact ⟨b, rest, hb, hrest, rfl⟩
      · rintro ⟨b, rest, hb, hrest, rfl⟩
        exact ⟨b, hb, rest, hrest, rfl⟩

/-- What succeeds for every element where something else does can be done for all of them. -/
theorem mapM_of_mapM {γ : Type} {f : α → Except ε β} {f' : α → Except ε γ} {g : β → γ}
    {as : List α} {bs : List β} (h : as.mapM f = .ok bs)
    (hf : ∀ a b, f a = .ok b → f' a = .ok (g b)) : as.mapM f' = .ok (bs.map g) := by
  rw [mapM_eq_ok, List.forall₂_map_right_iff]
  exact (mapM_eq_ok.mp h).imp hf

/-- In lists related element by element each element of the second belongs to one of the
first. -/
theorem exists_of_mem_right {R : α → β → Prop} {as : List α} {bs : List β}
    (h : List.Forall₂ R as bs) {b : β} (hb : b ∈ bs) : ∃ a ∈ as, R a b := by
  induction h with
  | nil => cases hb
  | cons hab _ ih =>
      rcases List.mem_cons.mp hb with rfl | hrest
      · exact ⟨_, List.mem_cons_self, hab⟩
      · obtain ⟨a, ha, hrel⟩ := ih hrest
        exact ⟨a, List.mem_cons_of_mem _ ha, hrel⟩

/-- And each element of the first to one of the second. -/
theorem exists_of_mem_left {R : α → β → Prop} {as : List α} {bs : List β}
    (h : List.Forall₂ R as bs) {a : α} (ha : a ∈ as) : ∃ b ∈ bs, R a b :=
  exists_of_mem_right h.flip ha

/-- What results for each element comes from an element. -/
theorem exists_of_mem_mapM {f : α → Except ε β} {as : List α} {bs : List β}
    (h : as.mapM f = .ok bs) {b : β} (hb : b ∈ bs) : ∃ a ∈ as, f a = .ok b :=
  exists_of_mem_right (mapM_eq_ok.mp h) hb

/-- All of it succeeds exactly if it does for each element. -/
theorem exists_mapM_iff {f : α → Except ε β} {as : List α} :
    (∃ bs, as.mapM f = .ok bs) ↔ ∀ a ∈ as, ∃ b, f a = .ok b := by
  constructor
  · rintro ⟨bs, hbs⟩ a ha
    obtain ⟨b, _, hb⟩ := exists_of_mem_left (mapM_eq_ok.mp hbs) ha
    exact ⟨b, hb⟩
  · intro h
    induction as with
    | nil => exact ⟨[], rfl⟩
    | cons a rest ih =>
        obtain ⟨⟨b, hb⟩, hrest⟩ := List.forall_mem_cons.mp h
        obtain ⟨bs, hbs⟩ := ih hrest
        exact ⟨b :: bs, mapM_eq_ok.mpr (.cons hb (mapM_eq_ok.mp hbs))⟩

end Outcome

variable {α : Type}

@[simp] theorem liftSchema_eq_ok {x : Except SchemaError α} {a : α} :
    liftSchema x = .ok a ↔ x = .ok a := by
  cases x <;> simp [liftSchema]

@[simp] theorem liftFilter_eq_ok {x : Except FilterError α} {a : α} :
    liftFilter x = .ok a ↔ x = .ok a := by
  cases x <;> simp [liftFilter]

@[simp] theorem liftLookup_eq_ok {x : Except SchemaError α} {a : α} :
    liftLookup x = .ok a ↔ x = .ok a := by
  simp [liftLookup]

end RowPolicy
