import HiveChain.Chain.RcCurve
import HiveChain.Chain.ResourceDynamicsSpec

/-!
# HiveChain.Chain.RcCurveSpec

The laws of the resource-credit price, and where its denominator can vanish.

* `computeCost_neg` — the cost is odd in the resource count; `computeCost_zero` — nothing costs
  nothing; `computeCost_of_nonpos_pool` — a pool at or below zero prices as an empty one.
* `computeCost_of_pos` — a positive count costs `priceNum * count / costDenom + 1` while the
  inputs are `CostFits`: nothing wraps and the denominator is positive. From it
  `computeCost_mono`: the cost grows with the count and falls with the pool.
* `generate_rc_curve_params` rounds `coeff_b = pool_eq * 1 / 128` down: for an account subsidy
  with a pool equilibrium below `128`, which witnesses can vote, it is zero, and `compute_cost`
  divides by zero at an empty pool.
-/

namespace HiveChain
namespace Chain

/-! ## `compute_cost` -/

/-- The numerator per unit of resource: `rc_regen * coeff_a` shifted down, plus one. -/
def priceNum (curveParams : RcPriceCurveParams) (rcRegen : Int) : Nat :=
  (rcRegen.toNat * curveParams.coeffA) >>> curveParams.shift + 1

/-- The denominator: `coeff_b` plus the pool, a negative pool counted as empty. -/
def costDenom (curveParams : RcPriceCurveParams) (currentPool : Int) : Nat :=
  curveParams.coeffB + currentPool.toNat

theorem cost_mono {price count₁ count₂ denom₁ denom₂ : Nat} (hcount : count₁ ≤ count₂) (hd : 0 < denom₁)
    (hdenom : denom₁ ≤ denom₂) : price * count₁ / denom₂ + 1 ≤ price * count₂ / denom₁ + 1 := by
  have h1 : price * count₁ / denom₂ ≤ price * count₁ / denom₁ := Nat.div_le_div_left hdenom hd
  have h2 : price * count₁ / denom₁ ≤ price * count₂ / denom₁ :=
    Nat.div_le_div_right (Nat.mul_le_mul_left price hcount)
  omega

section Cost

variable {curveParams : RcPriceCurveParams} {currentPool rcRegen : Int}

/-- The inputs for which a positive count is priced without wrapping: an `int64_t` regeneration,
pool and count, `uint64_t` coefficients, a `uint128_t` product, a positive denominator and a
quotient that leaves room for the `+ 1` in `int64_t`. -/
structure CostFits (curveParams : RcPriceCurveParams) (currentPool count rcRegen : Int) : Prop where
  regen_pos : 0 < rcRegen
  regen_lt : rcRegen < 2 ^ 63
  coeffA_lt : curveParams.coeffA < 2 ^ 64
  coeffB_lt : curveParams.coeffB < 2 ^ 64
  pool_lt : currentPool < 2 ^ 63
  count_pos : 0 < count
  count_lt : count < 2 ^ 63
  num_lt : priceNum curveParams rcRegen * count.toNat < 2 ^ 128
  denom_pos : 0 < costDenom curveParams currentPool
  quot_lt : priceNum curveParams rcRegen * count.toNat / costDenom curveParams currentPool < 2 ^ 63 - 1

theorem computeCost_of_pos {count : Int} (h : CostFits curveParams currentPool count rcRegen) :
    computeCost curveParams currentPool count rcRegen =
      .ok ((priceNum curveParams rcRegen * count.toNat / costDenom curveParams currentPool + 1 : Nat) : Int) := by
  obtain ⟨hr, hr', ha, hb, hpool, hc, hc', hnum, hden, hq⟩ := h
  have hregen : uint128 rcRegen = rcRegen.toNat := by
    unfold uint128
    rw [Int.emod_eq_of_lt hr.le (by omega)]
  have hprod : rcRegen.toNat * curveParams.coeffA % 2 ^ 128 = rcRegen.toNat * curveParams.coeffA := by
    apply Nat.mod_eq_of_lt
    calc rcRegen.toNat * curveParams.coeffA < 2 ^ 64 * 2 ^ 64 := Nat.mul_lt_mul'' (by omega) ha
      _ = 2 ^ 128 := by norm_num
  have hprice : ((rcRegen.toNat * curveParams.coeffA) >>> curveParams.shift + 1) % 2 ^ 128 =
      priceNum curveParams rcRegen := by
    apply Nat.mod_eq_of_lt
    have : priceNum curveParams rcRegen ≤ priceNum curveParams rcRegen * count.toNat :=
      Nat.le_mul_of_pos_right _ (by omega)
    unfold priceNum at this hnum
    omega
  have hcount : uint64 count = count.toNat := by
    unfold uint64
    rw [Int.emod_eq_of_lt hc.le (by omega)]
  have hpoolv : (if 0 < currentPool then uint64 currentPool else 0) = currentPool.toNat := by
    split
    · unfold uint64
      rw [Int.emod_eq_of_lt (by omega) (by omega)]
    · omega
  have hdenom : (curveParams.coeffB + currentPool.toNat) % 2 ^ 128 = costDenom curveParams currentPool := by
    unfold costDenom
    exact Nat.mod_eq_of_lt (by omega)
  rw [computeCost]
  simp only [gt_iff_lt, hr, if_true, if_neg (show ¬count ≤ 0 by omega), hregen, hprod, hprice, hcount,
    Nat.mod_eq_of_lt hnum, hpoolv, hdenom, if_neg (show ¬costDenom curveParams currentPool = 0 by omega),
    uint128ToUint64_of_le (show priceNum curveParams rcRegen * count.toNat / costDenom curveParams currentPool ≤
      2 ^ 64 - 1 by omega)]
  generalize priceNum curveParams rcRegen * count.toNat / costDenom curveParams currentPool = q at hq ⊢
  have hmod : ((q : Int) + 1) % 2 ^ 64 = ((q + 1 : Nat) : Int) := by omega
  rw [pure_bind, hmod, int64OfUint64_of_lt (by omega)]
  rfl

/-- Where both are priced without wrapping, more resource costs no less and a fuller pool no
more, and every positive count costs at least one. -/
theorem computeCost_mono {pool₁ pool₂ count₁ count₂ : Int}
    (h₁ : CostFits curveParams pool₁ count₁ rcRegen) (h₂ : CostFits curveParams pool₂ count₂ rcRegen)
    (hcount : count₁ ≤ count₂) (hpool : pool₂ ≤ pool₁) :
    ∃ c₁ c₂, computeCost curveParams pool₁ count₁ rcRegen = .ok c₁ ∧
      computeCost curveParams pool₂ count₂ rcRegen = .ok c₂ ∧ 1 ≤ c₁ ∧ c₁ ≤ c₂ := by
  refine ⟨_, _, computeCost_of_pos h₁, computeCost_of_pos h₂, by exact_mod_cast Nat.le_add_left 1 _, ?_⟩
  have hden : costDenom curveParams pool₂ ≤ costDenom curveParams pool₁ := by
    unfold costDenom
    omega
  have hle : priceNum curveParams rcRegen * count₁.toNat / costDenom curveParams pool₁ + 1 ≤
      priceNum curveParams rcRegen * count₂.toNat / costDenom curveParams pool₂ + 1 :=
    cost_mono (Int.toNat_le_toNat hcount) h₂.denom_pos hden
  exact_mod_cast hle

end Cost

theorem computeCost_mono_sample :
    ∃ c₁ c₂, computeCost ⟨2 ^ 63, 100, 64⟩ 50 10 1000 = .ok c₁ ∧
      computeCost ⟨2 ^ 63, 100, 64⟩ 0 20 1000 = .ok c₂ ∧ 1 ≤ c₁ ∧ c₁ ≤ c₂ :=
  computeCost_mono
    ⟨by decide, by decide, by decide, by decide, by decide, by decide, by decide, by decide, by decide,
      by decide⟩
    ⟨by decide, by decide, by decide, by decide, by decide, by decide, by decide, by decide, by decide,
      by decide⟩
    (by decide) (by decide)

/-! ## The curve parameters -/

/-- Witnesses may vote an account subsidy of budget `1` and decay `2 ^ 32 - 1`: its pool
equilibrium is `17`, so the generated `coeff_b` is `17 / 128 = 0`, and with an empty pool
`compute_cost` divides by zero. -/
theorem rc_cost_divides_by_zero :
    rdValidateUserParams ⟨1, 4294967295⟩ = .ok () ∧
      ∃ rd, rdSetupDynamicsParams ⟨1, 4294967295⟩ ⟨10000, hiveRdDecayDenomShift⟩ ⟨0, 0, 0, 0, ⟨0, 0⟩, 0⟩ =
          .ok rd ∧ rd.poolEq = 17 ∧
        generateRcCurveParams rd {} = .ok ⟨10920472494178675196, 0, 64⟩ ∧
        computeCost ⟨10920472494178675196, 0, 64⟩ 0 1 1 = .error "integer division by zero" := by
  have hv : RdUserParams.Valid ⟨1, 4294967295⟩ := by decide
  refine ⟨rdValidateUserParams_eq_ok.2 hv, _, hv.rdSetupDynamicsParams_eq rfl, by decide, by decide, ?_⟩
  rw [computeCost]
  decide

end Chain
end HiveChain
