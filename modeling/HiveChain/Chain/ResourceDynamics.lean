import Mathlib.Order.Bounds.Basic
import HiveChain.Chain.Vesting

/-!
# HiveChain.Chain.ResourceDynamics

The resource dynamics of the account subsidies (`chain/util/rd.cpp`): a pool that gains a budget
each block and loses a decay proportional to its size, `(decay_per_time_unit * pool) >> shift`.
`rd_setup_dynamics_params` sets `pool_eq`, the pool where the decay first covers the budget, by a
ceiling division in `uint128_t`, and then asserts that it is that pool.

* `int32_t` and `int64_t` values are `Int`, `uint32_t`, `uint64_t` and `uint128_t` values are
  `Nat`; each conversion and each `uint128_t` operation is written with its modulus.
* `-current_pool` is the negation of `Int`: for `INT64_MIN` it is undefined in C++.
* An `FC_ASSERT` throws the text of its condition.
* A constant of the source keeps its macro's name, in camel case (`HIVE_100_PERCENT` is
  `hive100Percent`).
-/

namespace HiveChain
namespace Chain

/-! ## Bounds -/

def hiveRdMinDecayBits : Nat := 6

def hiveRdDecayDenomShift : Nat := 36

def hiveRdMaxPoolBits : Nat := 64

def hiveRdMaxBudget1 : Nat := 2 ^ (hiveRdMaxPoolBits + hiveRdMinDecayBits - hiveRdDecayDenomShift) - 1

def hiveRdMaxBudget2 : Nat := 2 ^ (64 - hiveRdDecayDenomShift) - 1

/-- `HIVE_RD_MAX_BUDGET_3`, `std::numeric_limits<int32_t>::max()`. -/
def hiveRdMaxBudget3 : Nat := 2 ^ 31 - 1

/-- `HIVE_RD_MAX_BUDGET`: the least of the three, which the `int32_t` cast keeps. -/
def hiveRdMaxBudget : Int := min hiveRdMaxBudget1 (min hiveRdMaxBudget2 hiveRdMaxBudget3)

def hiveRdMinDecay : Nat := 2 ^ hiveRdMinDecayBits

def hiveRdMinBudget : Int := 1

def hiveRdMaxDecay : Nat := 0xFFFFFFFF

/-! ## Parameters -/

/-- `rd_user_params`: an `int32_t` budget and a `uint32_t` decay. -/
structure RdUserParams where
  budgetPerTimeUnit : Int
  decayPerTimeUnit : Nat
deriving DecidableEq, Repr

/-- `rd_system_params`. -/
structure RdSystemParams where
  resourceUnit : Nat
  decayPerTimeUnitDenomShift : Nat
deriving DecidableEq, Repr

/-- `rd_decay_params`: a `uint32_t` decay and a `uint8_t` shift. -/
structure RdDecayParams where
  decayPerTimeUnit : Nat
  decayPerTimeUnitDenomShift : Nat
deriving DecidableEq, Repr

/-- `rd_dynamics_params`. -/
structure RdDynamicsParams where
  resourceUnit : Nat
  budgetPerTimeUnit : Int
  poolEq : Nat
  maxPoolSize : Nat
  decayParams : RdDecayParams
  minDecay : Int
deriving DecidableEq, Repr

/-- An `int64_t` read as a `uint64_t`. -/
def uint64 (a : Int) : Nat := (a % 2 ^ 64).toNat

/-- `rd_validate_user_params`. -/
def rdValidateUserParams (userParams : RdUserParams) : Except String Unit := do
  unless hiveRdMinBudget ≤ userParams.budgetPerTimeUnit do
    throw "user_params.budget_per_time_unit >= HIVE_RD_MIN_BUDGET"
  unless userParams.budgetPerTimeUnit ≤ hiveRdMaxBudget do
    throw "user_params.budget_per_time_unit <= HIVE_RD_MAX_BUDGET"
  unless hiveRdMinDecay ≤ userParams.decayPerTimeUnit do
    throw "user_params.decay_per_time_unit >= HIVE_RD_MIN_DECAY"
  unless userParams.decayPerTimeUnit ≤ hiveRdMaxDecay do
    throw "user_params.decay_per_time_unit <= HIVE_RD_MAX_DECAY"

/-! ## Decay -/

/-- `rd_compute_pool_decay`: a negative pool decays as its negation; otherwise the `uint128_t`
product of decay, `dt` and pool, shifted down, narrowed to `uint64_t` and capped by the pool. -/
def rdComputePoolDecay (decayParams : RdDecayParams) (currentPool : Int) (dt : Nat) :
    Except String Int :=
  if currentPool < 0 then
    (fun decay => -decay) <$> rdComputePoolDecay decayParams (-currentPool) dt
  else do
    let decayAmount := decayParams.decayPerTimeUnit * dt % 2 ^ 64
    let decayAmount := decayAmount * uint64 currentPool % 2 ^ 128
    let decayAmount := decayAmount >>> decayParams.decayPerTimeUnitDenomShift
    let result ← uint128ToUint64 decayAmount
    pure (if result > uint64 currentPool then currentPool else int64OfUint64 result)
termination_by if currentPool < 0 then 1 else 0
decreasing_by
  -- the recursive call is made once, on a positive pool
  split <;> omega

/-- `rd_apply`: one block of budget and decay, the decay at least `min_decay`, the pool kept
between `0` and `max_pool_size`. -/
def rdApply (rd : RdDynamicsParams) (pool : Int) : Except String Int := do
  let decay ← rdComputePoolDecay rd.decayParams pool 1
  let budget := rd.budgetPerTimeUnit
  let maxPoolSize := int64OfUint64 rd.maxPoolSize
  let decay := max decay rd.minDecay
  let newPool := pool + budget - decay
  let newPool := min newPool maxPoolSize
  let newPool := max newPool 0
  pure newPool

/-- The lambda `check_pool_eq` of `rd_setup_dynamics_params`: whether the decay at a `uint64_t`
pool covers the budget. -/
def checkPoolEq (dparams : RdDynamicsParams) (pool : Nat) : Except String Bool := do
  let decay ← rdComputePoolDecay dparams.decayParams (int64OfUint64 pool) 1
  let budget := dparams.budgetPerTimeUnit
  pure (decide (decay ≥ budget))

/-- `rd_setup_dynamics_params`: the fields it sets on `dparams_out`, with
`pool_eq = ceil((budget << shift) / decay)`, and its three assertions. -/
def rdSetupDynamicsParams (userParams : RdUserParams) (systemParams : RdSystemParams)
    (dparamsOut : RdDynamicsParams) : Except String RdDynamicsParams := do
  let dparamsOut := { dparamsOut with
    resourceUnit := systemParams.resourceUnit
    budgetPerTimeUnit := userParams.budgetPerTimeUnit
    decayParams := ⟨userParams.decayPerTimeUnit, systemParams.decayPerTimeUnitDenomShift % 2 ^ 8⟩ }
  unless systemParams.decayPerTimeUnitDenomShift = hiveRdDecayDenomShift do
    throw "system_params.decay_per_time_unit_denom_shift == HIVE_RD_DECAY_DENOM_SHIFT"
  let temp := uint128 userParams.budgetPerTimeUnit
  let temp := (temp <<< systemParams.decayPerTimeUnitDenomShift) % 2 ^ 128
  let temp := (temp + (userParams.decayPerTimeUnit + (2 ^ 32 - 1)) % 2 ^ 32) % 2 ^ 128
  let temp := temp / userParams.decayPerTimeUnit
  let poolEq ← uint128ToUint64 temp
  let dparamsOut := { dparamsOut with poolEq := poolEq, maxPoolSize := poolEq }
  let covers ← checkPoolEq dparamsOut dparamsOut.poolEq
  unless covers do
    throw "check_pool_eq( dparams_out, dparams_out.pool_eq )"
  let coversBelow ← checkPoolEq dparamsOut ((dparamsOut.poolEq + (2 ^ 64 - 1)) % 2 ^ 64)
  unless !coversBelow do
    throw "!check_pool_eq( dparams_out, dparams_out.pool_eq-1 )"
  pure dparamsOut

end Chain
end HiveChain
