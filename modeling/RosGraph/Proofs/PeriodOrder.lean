import RosGraph.Period
import Mathlib.Data.UInt
import Mathlib.Order.Defs.LinearOrder

/-! Periods are linearly ordered, by seconds first, and the unset one comes first. -/

namespace RosGraph.Period

theorem lt_iff_toNat {a b : Period} : a < b ↔
    a.sec.toNat < b.sec.toNat ∨ a.sec.toNat = b.sec.toNat ∧ a.nsec.toNat < b.nsec.toNat := by
  rw [lt_def, UInt64.lt_iff_toNat_lt, UInt64.lt_iff_toNat_lt, UInt64.toNat_inj]

theorem eq_iff_toNat {a b : Period} :
    a = b ↔ a.sec.toNat = b.sec.toNat ∧ a.nsec.toNat = b.nsec.toNat := by
  cases a
  cases b
  rw [mk.injEq, UInt64.toNat_inj, UInt64.toNat_inj]

instance : LE Period := ⟨fun a b => ¬ b < a⟩

theorem le_def {a b : Period} : a ≤ b ↔ ¬ b < a := Iff.rfl

instance : LinearOrder Period where
  le_refl a := by rw [le_def, lt_iff_toNat]; omega
  le_trans a b c := by simp only [le_def, lt_iff_toNat]; omega
  le_antisymm a b := by simp only [le_def, lt_iff_toNat, eq_iff_toNat]; omega
  le_total a b := by simp only [le_def, lt_iff_toNat]; omega
  lt_iff_le_not_ge a b := by simp only [le_def, lt_iff_toNat]; omega
  toDecidableLE a b := inferInstanceAs (Decidable (¬ b < a))
  toDecidableEq := inferInstance
  toDecidableLT := inferInstance
  min_def a b := by
    show (if b < a then b else a) = _
    by_cases h : b < a <;> simp [le_def, h]
  max_def a b := by
    show (if a < b then b else a) = _
    by_cases hlt : a < b
    · have hle : a ≤ b := by rw [le_def, lt_iff_toNat]; rw [lt_iff_toNat] at hlt; omega
      simp [hlt, hle]
    · by_cases heq : a = b
      · simp [heq]
      · have hnle : ¬ a ≤ b := by
          rw [le_def, lt_iff_toNat]
          rw [lt_iff_toNat] at hlt
          rw [eq_iff_toNat] at heq
          omega
        simp [hlt, hnle]
  compare_eq_compareOfLessAndEq a b := rfl

theorem unset_le (p : Period) : unset ≤ p := by
  rw [le_def, lt_iff_toNat]
  simp [unset]

end RosGraph.Period
