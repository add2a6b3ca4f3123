import HiveChain.Chain.ResourceDynamics
import HiveChain.Chain.RewardCurve

/-!
# HiveChain.Chain.RcCurve

The price of resource credits (`chain/rc/rc_curve.cpp`, `resource_credits::compute_cost` in
`chain/rc/rc_utility.cpp`): a resource costs `A * rc_regen / (B + pool)` per unit, rounded up,
with `A` and its shift from the decay of the resource's pool and `B` a fraction of the pool's
equilibrium.

* `generate_rc_curve_params` normalises `A` with two `find_msb` shifts so that it fits 64 bits.
  `find_msb( 0 )` is undefined in C++; `Nat.log2 0 = 0` stands for it.
* `compute_cost` works in `uint128_t`, each operation written with its modulus. A division by
  zero traps in C++; here it throws `"integer division by zero"`.
* `-resource_count` and the negated cost are `Int` negations: for `INT64_MIN` they are
  undefined in C++.
* A division by a zero `inelasticity_threshold_denom` is not modelled: validation makes it
  positive.
-/

namespace HiveChain
namespace Chain

/-- `rc_price_curve_params`: `uint64_t` coefficients and a `uint8_t` shift. -/
structure RcPriceCurveParams where
  coeffA : Nat
  coeffB : Nat
  shift : Nat
deriving DecidableEq, Repr

/-- `rc_curve_gen_params`, with its defaults. -/
structure RcCurveGenParams where
  inelasticityThresholdNum : Nat := 1
  inelasticityThresholdDenom : Nat := 128
  aPointNum : Nat := 37
  aPointDenom : Nat := 1000
  uPointNum : Nat := 1
  uPointDenom : Nat := 2
deriving DecidableEq, Repr

/-- `rc_curve_gen_params::validate`. -/
def RcCurveGenParams.validate (p : RcCurveGenParams) : Except String Unit := do
  unless p.inelasticityThresholdNum ≤ 65535 do throw "inelasticity_threshold_num <= UINT16_MAX"
  unless p.inelasticityThresholdDenom ≤ 65535 do throw "inelasticity_threshold_denom <= UINT16_MAX"
  unless p.aPointNum ≤ 65535 do throw "a_point_num <= UINT16_MAX"
  unless p.aPointDenom ≤ 65535 do throw "a_point_denom <= UINT16_MAX"
  unless p.uPointNum ≤ 65535 do throw "u_point_num <= UINT16_MAX"
  unless p.uPointDenom ≤ 65535 do throw "u_point_denom <= UINT16_MAX"
  unless p.inelasticityThresholdNum > 0 do throw "inelasticity_threshold_num > 0"
  unless p.inelasticityThresholdDenom > p.inelasticityThresholdNum do
    throw "inelasticity_threshold_denom > inelasticity_threshold_num"
  unless p.aPointNum > 0 do throw "a_point_num > 0"
  unless p.aPointDenom > p.aPointNum do throw "a_point_denom > a_point_num"
  unless p.uPointNum > 0 do throw "u_point_num > 0"
  unless p.uPointDenom > p.uPointNum do throw "u_point_denom > u_point_num"

/-- `generate_rc_curve_params( price_curve_params, resource_dynamics_params, curve_gen_params )`. -/
def generateRcCurveParams (resourceDynamicsParams : RdDynamicsParams) (curveGenParams : RcCurveGenParams) :
    Except String RcPriceCurveParams := do
  let decay := resourceDynamicsParams.decayParams
  unless decay.decayPerTimeUnit > 0 do
    throw "resource_dynamics_params.decay_params.decay_per_time_unit > 0"
  let aNum := curveGenParams.aPointNum * ((curveGenParams.uPointDenom + 2 ^ 64 - curveGenParams.uPointNum) % 2 ^ 64) % 2 ^ 64
  let aDenom := curveGenParams.aPointDenom * curveGenParams.uPointNum % 2 ^ 64 * decay.decayPerTimeUnit % 2 ^ 64
  let aNum := max aNum 1
  let aDenom := max aDenom 1
  -- the places that bring the leading bit of `A_num`, then of `A_1`, to bit 63
  let shift1 := (63 - findMsb aNum) % 2 ^ 8
  let a1 := (aNum <<< shift1) % 2 ^ 64 / aDenom
  let shift2 := (63 - findMsb a1) % 2 ^ 8
  let shift := (shift1 + shift2) % 2 ^ 8
  unless shift ≥ decay.decayPerTimeUnitDenomShift do
    throw "shift >= resource_dynamics_params.decay_params.decay_per_time_unit_denom_shift"
  let u128A := (aNum <<< shift) % 2 ^ 128 / aDenom
  let coeffA ← uint128ToUint64 u128A
  let u128B := resourceDynamicsParams.poolEq * curveGenParams.inelasticityThresholdNum % 2 ^ 128 /
    curveGenParams.inelasticityThresholdDenom
  let coeffB ← uint128ToUint64 u128B
  pure { coeffA, coeffB, shift := (shift + 2 ^ 8 - decay.decayPerTimeUnitDenomShift) % 2 ^ 8 }

/-- `resource_credits::compute_cost( curve_params, current_pool, resource_count, rc_regen )`. -/
def computeCost (curveParams : RcPriceCurveParams) (currentPool resourceCount rcRegen : Int) :
    Except String Int := do
  unless rcRegen > 0 do throw "rc_regen > 0"
  if resourceCount ≤ 0 then
    if resourceCount < 0 then
      return -(← computeCost curveParams currentPool (-resourceCount) rcRegen)
    return 0
  let num := uint128 rcRegen * curveParams.coeffA % 2 ^ 128
  let num := num >>> curveParams.shift
  let num := (num + 1) % 2 ^ 128
  let num := num * uint64 resourceCount % 2 ^ 128
  -- a negative pool prices like an empty one
  let denom := (curveParams.coeffB + (if currentPool > 0 then uint64 currentPool else 0)) % 2 ^ 128
  if denom = 0 then throw "integer division by zero"
  let numDenom := num / denom
  let cost ← uint128ToUint64 numDenom
  return int64OfUint64 ((cost + 1) % 2 ^ 64)
termination_by if resourceCount < 0 then 1 else 0
decreasing_by
  -- the recursive call is made once, on a positive count
  split <;> omega

end Chain
end HiveChain
