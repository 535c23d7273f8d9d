import Mathlib.Order.Compare
import RowPolicy.Sql.Execution

/-!
# Cells that count as equal

Cells that link rows are compared by value: a truth value is a number, and an integer and a
double are equal if they are the same number. A missing cell and what is not a number are not
even equal to themselves. Two cells are equal exactly if both have the same value, so cells that
equal the same one equal each other.
-/

namespace RowPolicy

/-- The value of a double beside others; what is not a number has none. -/
def Binary64.extended? : Binary64 → Option (Bool ⊕ Rat)
  | nan => none
  | infinite negative => some (.inl negative)
  | x => x.value?.map .inr

namespace Binary64

theorem compare?_eq_iff {x y : Binary64} :
    x.compare? y = some .eq ↔ ∃ v, x.extended? = some v ∧ y.extended? = some v := by
  cases x with
  | nan => simp [compare?, extended?]
  | infinite a =>
      cases y with
      | nan => simp [compare?, extended?]
      | infinite b => cases a <;> cases b <;> simp [compare?, extended?]
      | finite b m e => cases a <;> simp [compare?, extended?, value?]
  | finite a m e =>
      cases y with
      | nan => simp [compare?, extended?]
      | infinite b => cases b <;> simp [compare?, extended?, value?]
      | finite b n f =>
          generalize hx : finite a m e = x
          generalize hy : finite b n f = y
          obtain ⟨v, hv, hv'⟩ : ∃ v, x.value? = some v ∧ x.extended? = some (.inr v) := by
            subst hx; exact ⟨_, rfl, rfl⟩
          obtain ⟨w, hw, hw'⟩ : ∃ w, y.value? = some w ∧ y.extended? = some (.inr w) := by
            subst hy; exact ⟨_, rfl, rfl⟩
          have hcompare : x.compare? y =
              some (if v < w then .lt else if v = w then .eq else .gt) := by
            subst hx hy
            simp only [compare?, hv, hw, Option.bind_eq_bind, Option.bind_some]
          rw [hcompare, hv', hw']
          by_cases heq : v = w
          · simp [heq]
          · by_cases hlt : v < w <;> simp [heq, hlt, Ne.symm heq]

theorem extended?_ofInt (n : Int) : (ofInt n).extended? = some (.inr n) := by
  have hvalue : (ofInt n).value? = some (n : Rat) := by
    simp only [ofInt, value?, Rat.zpow_zero, Rat.mul_one, decide_eq_true_eq, Option.some.injEq]
    rw [← Rat.intCast_natCast]
    split
    next hneg =>
      rw [← Rat.intCast_neg, show -(n.natAbs : Int) = n by omega]
    next hneg => rw [show (n.natAbs : Int) = n by omega]
  change (ofInt n).value?.map Sum.inr = _
  rw [hvalue, Option.map_some]

end Binary64

/-- Integers have the order that they have as doubles of any size. -/
theorem Number.compare?_eq_iff {x y : Number} : x.compare? y = some .eq ↔
    ∃ v, x.exact.extended? = some v ∧ y.exact.extended? = some v := by
  rw [← Binary64.compare?_eq_iff]
  cases x with
  | float x => rfl
  | int m =>
      cases y with
      | float y => rfl
      | int n =>
          rw [Binary64.compare?_eq_iff]
          simp [compare?, exact, Binary64.extended?_ofInt, eq_comm (a := m)]

/-- What a cell counts as where it links rows. -/
inductive LinkValue where
  | number (value : Bool ⊕ Rat)
  | text (s : String)
  | bytes (data : List UInt8)

/-- The value of a cell that links rows; a missing one has none. -/
def Scalar.linkValue? : Scalar → Option LinkValue
  | null => none
  | str s => some (.text s)
  | bytes data => some (.bytes data)
  | bool b => (Number.int (if b then 1 else 0)).exact.extended?.map .number
  | int n => (Number.int n).exact.extended?.map .number
  | float x => x.extended?.map .number

namespace Scalar

variable {a b c : Scalar}

theorem linkValue?_of_number {x : Number} (h : a.number? = some x) :
    a.linkValue? = x.exact.extended?.map .number := by
  cases a <;> simp only [number?, Option.some.injEq, reduceCtorEq] at h <;> subst h <;> rfl

theorem cellOrder?_of_number {x y : Number} (ha : a.number? = some x) (hb : b.number? = some y) :
    a.cellOrder? b = x.compare? y := by
  have hne : ¬ (a = null ∨ b = null) := by
    rintro (rfl | rfl)
    · cases ha
    · cases hb
  simp [cellOrder?, hne, order?, ha, hb]

theorem compare_bytes_eq_iff {s t : List UInt8} : compareOfLessAndEq s t = .eq ↔ s = t := by
  unfold compareOfLessAndEq
  by_cases heq : s = t
  · simp [heq, List.lt_irrefl]
  · by_cases hlt : s < t <;> simp [heq, hlt]

theorem cellOrder?_eq_iff : a.cellOrder? b = some .eq ↔
    ∃ v, a.linkValue? = some v ∧ b.linkValue? = some v := by
  cases ha : a.number? with
  | some x =>
      cases hb : b.number? with
      | some y =>
          rw [cellOrder?_of_number ha hb, Number.compare?_eq_iff, linkValue?_of_number ha,
            linkValue?_of_number hb]
          simp only [Option.map_eq_some_iff]
          constructor
          · rintro ⟨v, hx, hy⟩
            exact ⟨_, ⟨v, hx, rfl⟩, ⟨v, hy, rfl⟩⟩
          · rintro ⟨_, ⟨v, hx, rfl⟩, w, hy, heq⟩
            obtain rfl := LinkValue.number.inj heq
            exact ⟨w, hx, hy⟩
      | none =>
          rw [linkValue?_of_number ha]
          cases b <;> cases a <;> simp [number?, cellOrder?, order?, linkValue?, rank] at ha hb ⊢
  | none =>
      cases hb : b.number? with
      | some y =>
          rw [linkValue?_of_number hb]
          cases a <;> cases b <;> simp [number?, cellOrder?, order?, linkValue?, rank] at ha hb ⊢
      | none =>
          cases a <;> cases b <;>
            simp [number?, cellOrder?, order?, linkValue?, rank, compare_bytes_eq_iff,
              @eq_comm String, @eq_comm (List UInt8)] at ha hb ⊢

end Scalar

namespace Sql.Database

variable {a b c : Scalar}

/-- Cells are equal exactly if both have the same value. -/
theorem linked_iff : linked a b = true ↔ ∃ v, a.linkValue? = some v ∧ b.linkValue? = some v := by
  have horder : Affinity.order? .none a .none b = a.cellOrder? b := rfl
  rw [← Scalar.cellOrder?_eq_iff, linked, beq_iff_eq, Relation.test, horder]
  cases a.cellOrder? b with
  | none => simp
  | some o => simp [Relation.holds]

/-- Cells that equal the same one equal each other. -/
theorem linked_of_linked (hb : linked a b = true) (hc : linked a c = true) :
    linked b c = true := by
  obtain ⟨v, hv, hbv⟩ := linked_iff.mp hb
  obtain ⟨w, hw, hcw⟩ := linked_iff.mp hc
  obtain rfl := Option.some.inj (hv.symm.trans hw)
  exact linked_iff.mpr ⟨v, hbv, hcw⟩

end Sql.Database

end RowPolicy
