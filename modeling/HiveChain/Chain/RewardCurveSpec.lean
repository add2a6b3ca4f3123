import HiveChain.Chain.RewardCurve
import HiveChain.Lib.SqrtApprox
import HiveChain.Protocol.FixedStringSpec

/-!
# HiveChain.Chain.RewardCurveSpec

What the reward curves compute, and which of them grow with the rshares.

* `uint128ApproxSqrt_eq` — `fc::uint128_approx_sqrt` is the tangent approximation of
  `Lib.SqrtApprox`: for `x` between `2 ^ m` and `2 ^ (m + 1)` the tangent of `√x` at
  `4 ^ ⌈m / 2⌉`, rounded down. It is therefore monotone and positive at positive `x`.
* `evaluateRewardCurve_eq` — for a content constant below `2 ^ 63` and rshares below `2 ^ 63`
  nothing wraps and nothing divides by zero: every curve is `rewardCurve`, its formula in
  unbounded integers.
* `rewardCurve_mono` — all curves but `convergent_square_root` are monotone in the rshares.
  `convergent_square_root` divides by the approximate square root, whose steps can outgrow the
  numerator.
-/

namespace HiveChain
namespace Chain

open SqrtApprox

/-! ## `uint128_find_msb` -/

theorem log2_eq_log2_div_add {x : Nat} (h : 2 ^ 64 ≤ x) : Nat.log2 x = Nat.log2 (x / 2 ^ 64) + 64 := by
  have hhi : x / 2 ^ 64 ≠ 0 := by
    have := (Nat.le_div_iff_mul_le (Nat.two_pow_pos 64)).2 (by omega : 1 * 2 ^ 64 ≤ x)
    omega
  have hlo := Nat.log2_self_le hhi
  have hlt : x / 2 ^ 64 < 2 ^ (Nat.log2 (x / 2 ^ 64) + 1) := Nat.lt_log2_self
  rw [Nat.log2_eq_iff (by omega), Nat.pow_add, Nat.add_right_comm, Nat.pow_add]
  constructor
  · exact (Nat.le_div_iff_mul_le (Nat.two_pow_pos 64)).1 hlo
  · exact (Nat.div_lt_iff_lt_mul (Nat.two_pow_pos 64)).1 hlt

theorem uint128FindMsb_eq {x : Nat} (hx : 0 < x) (hx' : x < 2 ^ 128) : uint128FindMsb x = Nat.log2 x := by
  have hm : Nat.log2 x < 128 := (Nat.log2_lt (by omega)).2 hx'
  unfold uint128FindMsb findMsb uint128HighBits uint128LowBits
  by_cases hhi : x / 2 ^ 64 % 2 ^ 64 = 0
  · -- the high half is empty: the number is its low half
    have hlow : x < 2 ^ 64 := by
      have : x / 2 ^ 64 < 2 ^ 64 := (Nat.div_lt_iff_lt_mul (Nat.two_pow_pos 64)).2 (by omega)
      rw [Nat.mod_eq_of_lt this] at hhi
      exact (Nat.div_eq_zero_iff_lt (Nat.two_pow_pos 64)).1 hhi
    simp only [hhi, ne_eq, not_true_eq_false, if_false, Nat.mod_eq_of_lt hlow]
    rw [if_neg (by omega), Nat.add_zero, Nat.mod_eq_of_lt (by omega)]
  · have hge : 2 ^ 64 ≤ x := by
      by_contra hlt
      rw [Nat.div_eq_of_lt (by omega)] at hhi
      exact hhi rfl
    have hdiv : x / 2 ^ 64 < 2 ^ 64 := (Nat.div_lt_iff_lt_mul (Nat.two_pow_pos 64)).2 (by omega)
    rw [Nat.mod_eq_of_lt hdiv] at hhi ⊢
    simp only [ne_eq, hhi, not_false_eq_true, if_true, if_false]
    rw [log2_eq_log2_div_add hge] at hm ⊢
    exact Nat.mod_eq_of_lt (by omega)

/-! ## `uint128_approx_sqrt` -/

theorem two_pow_or_of_lt {z b : Nat} (hb : b < 2 ^ z) : 2 ^ z ||| b = 2 ^ z + b := by
  have h := Nat.two_pow_add_eq_or_of_lt hb 1
  rw [Nat.mul_one] at h
  exact h.symm

theorem two_pow_mul_two_pow_succ (z : Nat) : 2 ^ z * 2 ^ (z + 1) = 2 * 4 ^ z := by
  rw [four_pow_eq, Nat.pow_succ]
  ring

theorem approx_even {z x : Nat} (hx : 4 ^ z ≤ x) : 2 ^ z + (x - 4 ^ z) / 2 ^ z / 2 = tangentSqrt z x := by
  unfold tangentSqrt
  have hsum : x + 4 ^ z = (x - 4 ^ z) + 2 ^ z * 2 ^ (z + 1) := by
    rw [two_pow_mul_two_pow_succ]
    omega
  rw [Nat.div_div_eq_div_mul, ← Nat.pow_succ, hsum, Nat.add_mul_div_right _ _ (Nat.two_pow_pos _),
    Nat.add_comm]

theorem approx_odd {z x : Nat} (hx : 2 * 4 ^ z ≤ x) :
    2 ^ z + (2 ^ z + (x - 2 * 4 ^ z) / 2 ^ (z + 1)) / 2 = tangentSqrt (z + 1) x := by
  unfold tangentSqrt
  have hin : 2 ^ z + (x - 2 * 4 ^ z) / 2 ^ (z + 1) = x / 2 ^ (z + 1) := by
    have hsum : x = (x - 2 * 4 ^ z) + 2 ^ z * 2 ^ (z + 1) := by
      rw [two_pow_mul_two_pow_succ]
      omega
    conv_rhs => rw [hsum]
    rw [Nat.add_mul_div_right _ _ (Nat.two_pow_pos _), Nat.add_comm]
  have hsum : x + 4 ^ (z + 1) = x + 2 ^ z * 2 ^ (z + 1 + 1) := by
    rw [four_pow_eq, Nat.pow_succ, Nat.pow_succ, Nat.pow_succ]
    ring
  rw [hin, Nat.div_div_eq_div_mul, ← Nat.pow_succ, hsum, Nat.add_mul_div_right _ _ (Nat.two_pow_pos _),
    Nat.add_comm]

theorem uint128ApproxSqrt_eq {x : Nat} (hx' : x < 2 ^ 128) : uint128ApproxSqrt x = approxSqrt x := by
  unfold uint128ApproxSqrt approxSqrt
  by_cases hx0 : x = 0
  · rw [if_pos hx0, if_pos hx0]
  rw [if_neg hx0, if_neg hx0, uint128FindMsb_eq (by omega) hx']
  have hlo : 2 ^ Nat.log2 x ≤ x := Nat.log2_self_le hx0
  have hhi : x < 2 ^ (Nat.log2 x + 1) := Nat.lt_log2_self
  have hm : Nat.log2 x < 128 := (Nat.log2_lt hx0).2 hx'
  unfold sqrtIndex
  dsimp only
  generalize Nat.log2 x = m at hlo hhi hm ⊢
  have hxbit : (1 <<< m) % 2 ^ 128 = 2 ^ m := by
    rw [Nat.one_shiftLeft, Nat.mod_eq_of_lt (Nat.pow_lt_pow_right (by decide) hm)]
  have hmask : (2 ^ m + 2 ^ 128 - 1) % 2 ^ 128 = 2 ^ m - 1 := by
    have := Nat.two_pow_pos m
    have := Nat.pow_lt_pow_right (by decide : 1 < 2) hm
    omega
  have hmant : x &&& (2 ^ m - 1) = x - 2 ^ m := by
    rw [Nat.and_two_pow_sub_one_eq_mod, Nat.mod_eq_sub_mod hlo, Nat.mod_eq_of_lt (by rw [Nat.pow_succ] at hhi; omega)]
  have hz : m >>> 1 = m / 2 := by rw [Nat.shiftRight_eq_div_pow, Nat.pow_one]
  have hzbit : (1 <<< (m / 2)) % 2 ^ 64 = 2 ^ (m / 2) := by
    rw [Nat.one_shiftLeft, Nat.mod_eq_of_lt (Nat.pow_lt_pow_right (by decide) (by omega))]
  have hlow_lt : (x - 2 ^ m) / 2 ^ (m - m / 2) < 2 ^ (m / 2) := by
    rw [Nat.div_lt_iff_lt_mul (Nat.two_pow_pos _), ← Nat.pow_add, show m / 2 + (m - m / 2) = m by omega]
    rw [Nat.pow_succ] at hhi
    omega
  have hlow : uint128LowBits ((x - 2 ^ m) >>> (m - m / 2)) = (x - 2 ^ m) / 2 ^ (m - m / 2) := by
    rw [uint128LowBits, Nat.shiftRight_eq_div_pow,
      Nat.mod_eq_of_lt (lt_of_lt_of_le hlow_lt (Nat.pow_le_pow_right (by decide) (by omega)))]
  rw [hxbit, hmask, hmant, hz, hzbit, hlow, Nat.and_one_is_mod, Nat.shiftRight_eq_div_pow, Nat.pow_one]
  rcases Nat.even_or_odd' m with ⟨z, rfl | rfl⟩
  · -- an even bit length `2z`: no high part
    have h4 : 2 ^ (2 * z) = 4 ^ z := by rw [four_pow_eq, ← Nat.pow_add, two_mul]
    have hz : 2 * z / 2 = z := by omega
    have hshift : 2 * z - z = z := by omega
    rw [hz, hshift, h4] at hlow_lt
    rw [h4] at hlo
    have hb : (x - 4 ^ z) / 2 ^ z / 2 < 2 ^ z := lt_of_le_of_lt (Nat.div_le_self _ _) hlow_lt
    rw [if_neg (by omega), Nat.zero_or, hz, hshift, show (2 * z + 1) / 2 = z by omega, h4,
      two_pow_or_of_lt hb, approx_even hlo]
  · -- an odd bit length `2z + 1`: the high part is `2 ^ z`
    have h4 : 2 ^ (2 * z + 1) = 2 * 4 ^ z := by
      rw [four_pow_eq, Nat.pow_succ, ← Nat.pow_add, two_mul, Nat.mul_comm]
    have hz : (2 * z + 1) / 2 = z := by omega
    have hshift : 2 * z + 1 - z = z + 1 := by omega
    rw [hz, hshift, h4] at hlow_lt
    rw [h4] at hlo
    have hb : (2 ^ z + (x - 2 * 4 ^ z) / 2 ^ (z + 1)) / 2 < 2 ^ z := by omega
    rw [if_pos (by omega), hz, hshift, show (2 * z + 1 + 1) / 2 = z + 1 by omega, h4,
      two_pow_or_of_lt hlow_lt, two_pow_or_of_lt hb, approx_odd hlo]

/-! ## The curves -/

/-- The reward curves in unbounded integers, with `approxSqrt` for the square root. -/
def rewardCurve (r : Nat) (curve : CurveId) (s : Nat) : Nat :=
  match curve with
  | .quadratic => (r + s) * (r + s) - s * s
  | .boundedCuration => r * 2 ^ 64 / (2 * s + r)
  | .linear => r
  | .squareRoot => approxSqrt r
  | .convergentLinear => ((r + s) * (r + s) - s * s) / (r + 4 * s)
  | .convergentSquareRoot => r / approxSqrt (r + 2 * s)

theorem uint128SquareSub_eq {a b : Nat} (hba : b ≤ a) (ha : a < 2 ^ 64) :
    uint128SquareSub a b = a * a - b * b := by
  have haa : a * a < 2 ^ 128 :=
    calc a * a < 2 ^ 64 * 2 ^ 64 := Nat.mul_lt_mul'' ha ha
      _ = 2 ^ 128 := by norm_num
  have hbb : b * b ≤ a * a := Nat.mul_le_mul hba hba
  unfold uint128SquareSub
  rw [Nat.mod_eq_of_lt haa, Nat.mod_eq_of_lt (show b * b < 2 ^ 128 by omega)]
  omega

theorem evaluateRewardCurve_eq {r s : Nat} (hs : 0 < s) (hs' : s < 2 ^ 63) (hr : r < 2 ^ 63)
    (curve : CurveId) : evaluateRewardCurve r curve s = some (rewardCurve r curve s) := by
  have hrs : r + s < 2 ^ 64 := by omega
  cases curve with
  | quadratic =>
    simp only [evaluateRewardCurve, rewardCurve]
    rw [Nat.mod_eq_of_lt (by omega), uint128SquareSub_eq (by omega) hrs]
  | boundedCuration =>
    -- `to_uint128( low_bits( rshares ), 0 )` is `rshares * 2 ^ 64`
    have hden : (s * 2 % 2 ^ 128 + r) % 2 ^ 128 = 2 * s + r := by omega
    simp only [evaluateRewardCurve, rewardCurve, uint128LowBits]
    rw [Nat.mod_eq_of_lt (by omega : r < 2 ^ 64), Protocol.Storage.toUint128_eq (by decide), Nat.add_zero,
      hden, uint128Div, if_neg (by omega)]
  | linear => rfl
  | squareRoot =>
    simp only [evaluateRewardCurve, rewardCurve]
    rw [uint128ApproxSqrt_eq (by omega)]
  | convergentLinear =>
    simp only [evaluateRewardCurve, rewardCurve]
    rw [Nat.mod_eq_of_lt (by omega : r + s < 2 ^ 128), uint128SquareSub_eq (by omega) hrs,
      Nat.mod_eq_of_lt (by omega : r + 4 * s < 2 ^ 128), uint128Div, if_neg (by omega)]
  | convergentSquareRoot =>
    have hpos := approxSqrt_pos (show 0 < r + 2 * s by omega)
    simp only [evaluateRewardCurve, rewardCurve]
    rw [Nat.mod_eq_of_lt (by omega : r + 2 * s < 2 ^ 128), uint128ApproxSqrt_eq (by omega), uint128Div,
      if_neg (by omega)]

theorem add_mul_self_sub (r s : Nat) : (r + s) * (r + s) - s * s = r * (r + 2 * s) := by
  rw [show (r + s) * (r + s) = r * (r + 2 * s) + s * s by ring, Nat.add_sub_cancel]

theorem rewardCurve_mono {r₁ r₂ s : Nat} (hs : 0 < s) (h : r₁ ≤ r₂) {curve : CurveId}
    (hcurve : curve ≠ .convergentSquareRoot) : rewardCurve r₁ curve s ≤ rewardCurve r₂ curve s := by
  cases curve with
  | quadratic =>
    simp only [rewardCurve, add_mul_self_sub]
    exact Nat.mul_le_mul h (by omega)
  | boundedCuration =>
    simp only [rewardCurve]
    apply div_le_div_of_mul_le (by omega) (by omega)
    have hcross : r₁ * (2 * s + r₂) ≤ r₂ * (2 * s + r₁) := by nlinarith
    calc r₁ * 2 ^ 64 * (2 * s + r₂) = r₁ * (2 * s + r₂) * 2 ^ 64 := by ring
      _ ≤ r₂ * (2 * s + r₁) * 2 ^ 64 := Nat.mul_le_mul_right _ hcross
      _ = r₂ * 2 ^ 64 * (2 * s + r₁) := by ring
  | linear => exact h
  | squareRoot => exact approxSqrt_mono h
  | convergentLinear =>
    simp only [rewardCurve, add_mul_self_sub]
    apply div_le_div_of_mul_le (by omega) (by omega)
    obtain ⟨d, rfl⟩ := Nat.exists_eq_add_of_le h
    -- the cross products differ by `d * (r₁ * r₂ + 4 s (r₁ + r₂) + 8 s²)`
    have hcross : (r₁ + d) * (r₁ + d + 2 * s) * (r₁ + 4 * s) =
        r₁ * (r₁ + 2 * s) * (r₁ + d + 4 * s) + d * (r₁ * (r₁ + d) + 4 * s * (r₁ + (r₁ + d)) + 8 * s * s) := by
      ring
    rw [hcross]
    exact Nat.le_add_right _ _
  | convergentSquareRoot => exact absurd rfl hcurve

/-- For a content constant and rshares below `2 ^ 63` every curve is evaluated without wrapping or
a zero divisor, and every curve but `convergent_square_root` gives no less weight to more rshares. -/
theorem reward_curves_grow {r₁ r₂ s : Nat} (hs : 0 < s) (hs' : s < 2 ^ 63) (hr : r₂ < 2 ^ 63)
    (h : r₁ ≤ r₂) {curve : CurveId} (hcurve : curve ≠ .convergentSquareRoot) :
    ∃ w₁ w₂, evaluateRewardCurve r₁ curve s = some w₁ ∧ evaluateRewardCurve r₂ curve s = some w₂ ∧
      w₁ ≤ w₂ :=
  ⟨_, _, evaluateRewardCurve_eq hs hs' (by omega) curve, evaluateRewardCurve_eq hs hs' hr curve,
    rewardCurve_mono hs h hcurve⟩

theorem reward_curves_grow_sample :
    ∃ w₁ w₂, evaluateRewardCurve 107062476799 .squareRoot 2000000000000 = some w₁ ∧
      evaluateRewardCurve 107062476800 .squareRoot 2000000000000 = some w₂ ∧ w₁ ≤ w₂ :=
  reward_curves_grow (by decide) (by decide) (by decide) (by decide) (by decide)

/-- `convergent_square_root`, the curation curve since hardfork 21, at its content constant
`2000000000000`: one more rshare gives less weight. And `bounded_curation` with a content constant
of `2 ^ 127` divides by zero. -/
theorem convergent_square_root_decreases :
    evaluateRewardCurve 107062476799 .convergentSquareRoot 2000000000000 = some 52798 ∧
      evaluateRewardCurve 107062476800 .convergentSquareRoot 2000000000000 = some 52797 ∧
      evaluateRewardCurve 0 .boundedCuration (2 ^ 127) = none :=
  ⟨by decide, by decide, by decide⟩

end Chain
end HiveChain
