import HiveChain.Chain.Participation
import HiveChain.Protocol.FixedString

/-!
# HiveChain.Chain.RewardCurve

`util::evaluate_reward_curve` (`chain/util/reward.cpp`): the weight of `rshares` under each reward
curve, computed in `uint128_t`, with `fc::uint128_approx_sqrt` for the square-root curves
(`fc/src/uint128.cpp`).

* `uint128_t` arithmetic wraps modulo `2 ^ 128`; a division by zero traps, and the model returns
  `none` there.
* `boost::multiprecision::detail::find_msb` is `Nat.log2`.
* The vote evaluator takes the curation weight of a vote as the difference of the curve at the
  comment's rshares after and before it, and gives no weight when the difference is not
  positive.
-/

namespace HiveChain
namespace Chain

/-- `protocol::curve_id`. -/
inductive CurveId where
  | quadratic
  | boundedCuration
  | linear
  | squareRoot
  | convergentLinear
  | convergentSquareRoot
deriving DecidableEq, Repr

/-- `boost::multiprecision::detail::find_msb`: the index of the highest set bit. -/
def findMsb (x : Nat) : Nat := Nat.log2 x

/-- `fc::uint128_find_msb`, a `uint8_t`. -/
def uint128FindMsb (u : Nat) : Nat :=
  let x := uint128HighBits u
  let places := if x ≠ 0 then 64 else 0
  let x := if x ≠ 0 then x else uint128LowBits u
  let x := if x = 0 then 1 else x
  (findMsb x + places) % 2 ^ 8

/-- `fc::uint128_approx_sqrt`, a `uint64_t`. -/
def uint128ApproxSqrt (x : Nat) : Nat :=
  if x = 0 then 0
  else
    let msbX := uint128FindMsb x
    let msbZ := msbX >>> 1
    let msbXBit := (1 <<< msbX) % 2 ^ 128
    let msbZBit := (1 <<< msbZ) % 2 ^ 64
    let mantissaMask := (msbXBit + 2 ^ 128 - 1) % 2 ^ 128
    let mantissaX := x &&& mantissaMask
    let mantissaZHi := if msbX &&& 1 ≠ 0 then msbZBit else 0
    let mantissaZLo := uint128LowBits (mantissaX >>> (msbX - msbZ))
    let mantissaZ := (mantissaZHi ||| mantissaZLo) >>> 1
    msbZBit ||| mantissaZ

/-- `uint128_t` division; `none` for a division by zero. -/
def uint128Div (a b : Nat) : Option Nat := if b = 0 then none else some (a / b)

/-- `a * a - b * b` in `uint128_t`. -/
def uint128SquareSub (a b : Nat) : Nat := (a * a % 2 ^ 128 + 2 ^ 128 - b * b % 2 ^ 128) % 2 ^ 128

/-- `util::evaluate_reward_curve( rshares, curve, var1 )`. -/
def evaluateRewardCurve (rshares : Nat) (curve : CurveId) (var1 : Nat) : Option Nat :=
  match curve with
  | .quadratic =>
    let contentConstant := var1
    let rsharesPlusS := (rshares + contentConstant) % 2 ^ 128
    some (uint128SquareSub rsharesPlusS contentConstant)
  | .boundedCuration =>
    let contentConstant := var1
    let twoAlpha := contentConstant * 2 % 2 ^ 128
    uint128Div (Protocol.Storage.toUint128 (uint128LowBits rshares) 0) ((twoAlpha + rshares) % 2 ^ 128)
  | .linear => some rshares
  | .squareRoot => some (uint128ApproxSqrt rshares)
  | .convergentLinear =>
    let s := var1
    uint128Div (uint128SquareSub ((rshares + s) % 2 ^ 128) s) ((rshares + 4 * s) % 2 ^ 128)
  | .convergentSquareRoot =>
    let s := var1
    uint128Div rshares (uint128ApproxSqrt ((rshares + 2 * s) % 2 ^ 128))

end Chain
end HiveChain
