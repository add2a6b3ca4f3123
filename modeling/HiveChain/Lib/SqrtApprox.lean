import Mathlib.Tactic.Linarith
import Mathlib.Tactic.Ring

/-!
# HiveChain.Lib.SqrtApprox

The square root approximated in integers by its tangents at the powers of four.

* `tangentSqrt k x = (x + 4 ^ k) / 2 ^ (k + 1)` — the tangent of `√x` at `x = 4 ^ k`, rounded
  down. For each `k` it is monotone in `x`.
* `sqrtIndex x = (log₂ x + 1) / 2` — the tangent for `x`: it is the lowest of all tangents at
  `x` (`tangentSqrt_sqrtIndex_le`). The approximation `x ↦ tangentSqrt (sqrtIndex x) x` is thus
  the lower envelope of monotone functions, and monotone itself (`tangentSqrt_sqrtIndex_mono`).
* `approxSqrt` — that approximation, with `0` at `0`: monotone and positive at positive `x`.
-/

namespace HiveChain
namespace SqrtApprox

theorem div_le_div_of_mul_le {a b c d : Nat} (hb : 0 < b) (hd : 0 < d) (h : a * d ≤ c * b) :
    a / b ≤ c / d := by
  rw [Nat.le_div_iff_mul_le hd]
  have hq : a / b * b ≤ a := Nat.div_mul_le_self a b
  have hmul : a / b * d * b ≤ c * b :=
    calc a / b * d * b = a / b * b * d := by ring
      _ ≤ a * d := Nat.mul_le_mul_right d hq
      _ ≤ c * b := h
  exact Nat.le_of_mul_le_mul_right hmul hb

/-- The tangent of `√x` at `x = 4 ^ k`, rounded down. -/
def tangentSqrt (k x : Nat) : Nat := (x + 4 ^ k) / 2 ^ (k + 1)

/-- The power of four whose tangent approximates `√x`: half the bit length of `x`. -/
def sqrtIndex (x : Nat) : Nat := (Nat.log2 x + 1) / 2

theorem tangentSqrt_mono (k : Nat) {x y : Nat} (h : x ≤ y) : tangentSqrt k x ≤ tangentSqrt k y :=
  Nat.div_le_div_right (by omega)

theorem tangent_mul_le {x a c : Nat} (h : a ≤ c ∧ x ≤ a * c ∨ c ≤ a ∧ a * c ≤ x) :
    (x + a * a) * c ≤ (x + c * c) * a := by
  rcases h with ⟨hac, hx⟩ | ⟨hca, hx⟩
  · obtain ⟨d, rfl⟩ := Nat.exists_eq_add_of_le hac
    nlinarith [Nat.mul_le_mul_right d hx]
  · obtain ⟨d, rfl⟩ := Nat.exists_eq_add_of_le hca
    nlinarith [Nat.mul_le_mul_right d hx]

theorem four_pow_eq (n : Nat) : 4 ^ n = 2 ^ n * 2 ^ n := by
  rw [← Nat.mul_pow]

theorem tangentSqrt_sqrtIndex_le {x : Nat} (hx : 0 < x) (j : Nat) :
    tangentSqrt (sqrtIndex x) x ≤ tangentSqrt j x := by
  have hlo : 2 ^ Nat.log2 x ≤ x := Nat.log2_self_le (by omega)
  have hhi : x < 2 ^ (Nat.log2 x + 1) := Nat.lt_log2_self
  -- `sqrtIndex x` is `⌈log₂ x / 2⌉`
  have hk₁ : Nat.log2 x ≤ 2 * sqrtIndex x := by unfold sqrtIndex; omega
  have hk₂ : 2 * sqrtIndex x ≤ Nat.log2 x + 1 := by unfold sqrtIndex; omega
  rcases lt_trichotomy j (sqrtIndex x) with hj | rfl | hj
  · -- a lower tangent: `x` lies above `2 ^ (k + j)`
    have hx' : 2 ^ sqrtIndex x * 2 ^ j ≤ x := by
      rw [← Nat.pow_add]
      exact le_trans (Nat.pow_le_pow_right (by decide) (by omega)) hlo
    apply div_le_div_of_mul_le (Nat.two_pow_pos _) (Nat.two_pow_pos _)
    rw [four_pow_eq, four_pow_eq, Nat.pow_succ, Nat.pow_succ, ← Nat.mul_assoc, ← Nat.mul_assoc]
    exact Nat.mul_le_mul_right 2 (tangent_mul_le (.inr ⟨Nat.pow_le_pow_right (by decide) hj.le, hx'⟩))
  · exact le_refl _
  · -- a higher tangent: `x` lies below `2 ^ (k + j)`
    have hx' : x ≤ 2 ^ sqrtIndex x * 2 ^ j := by
      rw [← Nat.pow_add]
      exact le_trans hhi.le (Nat.pow_le_pow_right (by decide) (by omega))
    apply div_le_div_of_mul_le (Nat.two_pow_pos _) (Nat.two_pow_pos _)
    rw [four_pow_eq, four_pow_eq, Nat.pow_succ, Nat.pow_succ, ← Nat.mul_assoc, ← Nat.mul_assoc]
    exact Nat.mul_le_mul_right 2 (tangent_mul_le (.inl ⟨Nat.pow_le_pow_right (by decide) hj.le, hx'⟩))

theorem tangentSqrt_sqrtIndex_mono {x y : Nat} (hx : 0 < x) (h : x ≤ y) :
    tangentSqrt (sqrtIndex x) x ≤ tangentSqrt (sqrtIndex y) y :=
  calc tangentSqrt (sqrtIndex x) x ≤ tangentSqrt (sqrtIndex y) x := tangentSqrt_sqrtIndex_le hx _
    _ ≤ tangentSqrt (sqrtIndex y) y := tangentSqrt_mono _ h

theorem one_le_tangentSqrt (k : Nat) {x : Nat} (hx : 0 < x) : 1 ≤ tangentSqrt k x := by
  unfold tangentSqrt
  rw [Nat.le_div_iff_mul_le (Nat.two_pow_pos _), Nat.one_mul, four_pow_eq, Nat.pow_succ]
  have hpos := Nat.two_pow_pos k
  nlinarith

/-- The approximation of `√x`: the tangent of `sqrtIndex x`, and `0` at `0`. -/
def approxSqrt (x : Nat) : Nat := if x = 0 then 0 else tangentSqrt (sqrtIndex x) x

theorem approxSqrt_mono {x y : Nat} (h : x ≤ y) : approxSqrt x ≤ approxSqrt y := by
  unfold approxSqrt
  by_cases hx : x = 0
  · rw [if_pos hx]
    exact Nat.zero_le _
  · rw [if_neg hx, if_neg (by omega)]
    exact tangentSqrt_sqrtIndex_mono (by omega) h

theorem approxSqrt_pos {x : Nat} (hx : 0 < x) : 0 < approxSqrt x := by
  unfold approxSqrt
  rw [if_neg (by omega)]
  exact one_le_tangentSqrt _ hx

end SqrtApprox
end HiveChain
