import HiveChain.Chain.FeedHistory

/-!
# HiveChain.Chain.Inflation

`database::process_funds` (`chain/database.cpp`) from `HIVE_HARDFORK_0_16__551`: every block
mints HIVE at the current inflation rate, which narrows by 0.01% every 250,000 blocks, and shares
it out: the content part to the reward funds (`pay_reward_funds`, from `HIVE_HARDFORK_0_17__774`;
before, to `total_reward_fund_hive`), the vesting part to the vesting fund, the proposal part as
HBD to the treasury, and what is left, weighted by the schedule type of the producer, as VESTS to
the producer (`create_vesting2`).

* Amounts are `share_type`: every product, quotient, sum and difference is a `safe< int64_t >`
  operator, which throws on overflow and on a zero divisor; `asset::operator+=` asserts that the
  symbols agree.
* The treasury's HBD goes through `adjust_balance` of `HiveChain.Chain.Market`, which pays the
  interest on liquid HBD before `HIVE_HARDFORK_1_25`; the producer's VESTS through
  `adjust_account_vesting_balance` of `HiveChain.Chain.Vesting`. The witness votes that
  `create_vesting2` then adjusts, the virtual operations and the `system_warning_operation` for an
  unknown schedule type are not modelled.
* The branch before `HIVE_HARDFORK_0_16__551` is not modelled.
* A constant of the source keeps its macro's name, in camel case (`HIVE_100_PERCENT` is
  `hive100Percent`).
-/

namespace HiveChain
namespace Chain

open EState

def hiveInflationRateStartPercent : Int := 978

def hiveInflationRateStopPercent : Int := 95

def hiveInflationNarrowingPeriod : Nat := 250000

def hiveBlocksPerYear : Nat := 365 * 24 * 60 * 60 / hiveBlockInterval

namespace ShareType

/-- `safe< int64_t >::operator/`, the quotient of C++. -/
def div (a b : Int) : Except String Int :=
  if b = 0 then .error "divide_by_zero_exception"
  else if a = int64Min ∧ b = -1 then .error "overflow_exception"
  else .ok (a.tdiv b)

end ShareType

/-- `witness_object::witness_schedule_type`. -/
inductive WitnessScheduleType where
  | elected
  | timeshare
  | miner
  | none
deriving DecidableEq, Repr

/-- What `pay_reward_funds` reads and writes of a `reward_fund_object`. -/
structure RewardFund where
  percentContentRewards : Nat
  rewardBalance : Int
deriving DecidableEq, Repr

/-- What `process_funds` reads and writes: the balances (with `current_hbd_supply` and the
hardfork), the vesting state, the reward funds in id order, the fields of
`dynamic_global_property_object`, the weights of `witness_schedule_object`, the schedule type of
each witness, and the median price of the feed history. -/
structure FundsState (Acc : Type) where
  chain : MarketState Acc
  vesting : VestingState Acc
  rewardFunds : List RewardFund
  headBlockNum : Nat
  currentWitness : Acc
  schedule : Acc → WitnessScheduleType
  electedWeight : Nat
  timeshareWeight : Nat
  minerWeight : Nat
  witnessPayNormalizationFactor : Nat
  virtualSupply : Int
  currentSupply : Int
  totalRewardFundHive : Int
  dhfIntervalLedger : Int
  contentRewardPercent : Nat
  vestingRewardPercent : Nat
  proposalFundPercent : Nat
  currentMedianHistory : Price
  treasury : Acc

abbrev FundsM (Acc : Type) := EStateM String (FundsState Acc)

variable {Acc : Type} [LinearOrder Acc]

namespace FundsState

def hasHardfork (s : FundsState Acc) (n : Nat) : Bool := s.chain.hasHardfork n

/-- The weight of a schedule type in the witness reward; an unknown type has none. -/
def scheduleWeight (s : FundsState Acc) : WitnessScheduleType → Option Nat
  | .timeshare => some s.timeshareWeight
  | .miner => some s.minerWeight
  | .elected => some s.electedWeight
  | .none => none

end FundsState

/-- A function of the balances run on the funds state. -/
def fundsOnChain {α : Type} (m : MarketM Acc α) : FundsM Acc α :=
  focus FundsState.chain (fun s c => { s with chain := c }) m

/-- A function of the vesting state run on the funds state. -/
def fundsOnVesting {α : Type} (m : VestingM Acc α) : FundsM Acc α :=
  focus FundsState.vesting (fun s v => { s with vesting := v }) m

/-- `current_inflation_rate`, in hundredths of a percent. -/
def currentInflationRate (headBlockNum : Nat) : Int :=
  max (hiveInflationRateStartPercent - (headBlockNum / hiveInflationNarrowingPeriod : Nat))
    hiveInflationRateStopPercent

/-- `( a * percent ) / HIVE_100_PERCENT` in `share_type`. -/
def percentOf (a : Int) (percent : Nat) : Except String Int := do
  ShareType.div (← ShareType.mul a percent) hive100Percent

/-- `asset::operator+=` on an amount of `symbol`. -/
def addAsset (symbol : Symbol) (amount : Int) (delta : Asset) : Except String Int := do
  unless symbol = delta.symbol do throw "symbol == o.symbol"
  ShareType.add amount delta.amount

/-- The loop of `pay_reward_funds` from `used_rewards`: each fund gets its part of `reward`, and
what has been paid may not pass `reward`. Returns the funds and `used_rewards`. -/
def payRewardFundsLoop (reward : Int) : List RewardFund → Int → Except String (List RewardFund × Int)
  | [], used => pure ([], used)
  | f :: fs, used => do
    let r ← percentOf reward f.percentContentRewards
    let rewardBalance ← ShareType.add f.rewardBalance r
    let used ← ShareType.add used r
    unless used ≤ reward do throw "used_rewards <= reward"
    let (fs, used) ← payRewardFundsLoop reward fs used
    pure ({ f with rewardBalance } :: fs, used)

/-- `pay_reward_funds`: returns what it paid. -/
def payRewardFunds (reward : Int) : FundsM Acc Int := do
  let s ← get
  let (rewardFunds, used) ← fromExcept (payRewardFundsLoop reward s.rewardFunds 0)
  set { s with rewardFunds }
  pure used

/-- The `modify` of the global properties at the end of `process_funds`. -/
def creditGlobals (s : FundsState Acc) (contentReward vestingReward newHive dhfNewFunds : Int)
    (newHbd : Asset) : Except String (FundsState Acc) := do
  let totalVestingFundHive ← ShareType.add s.vesting.globals.totalVestingFundHive vestingReward
  let totalRewardFundHive ← (if s.hasHardfork 17 then pure s.totalRewardFundHive
    else ShareType.add s.totalRewardFundHive contentReward : Except String Int)
  let currentSupply ← ShareType.add s.currentSupply newHive
  let currentHbdSupply ← addAsset .hbd s.chain.currentHbdSupply newHbd
  let virtualSupply ← ShareType.add s.virtualSupply (← ShareType.add newHive dhfNewFunds)
  let dhfIntervalLedger ← addAsset .hbd s.dhfIntervalLedger newHbd
  pure { s with
    vesting := { s.vesting with globals := { s.vesting.globals with totalVestingFundHive } }
    chain := { s.chain with currentHbdSupply }
    totalRewardFundHive, currentSupply, virtualSupply, dhfIntervalLedger }

/-- `database::process_funds` from `HIVE_HARDFORK_0_16__551`. -/
def processFunds : FundsM Acc Unit := do
  let s ← get
  let newHive ← fromExcept do
    ShareType.div (← ShareType.mul s.virtualSupply (currentInflationRate s.headBlockNum))
      ((hive100Percent * hiveBlocksPerYear : Nat) : Int)
  let contentReward ← fromExcept (percentOf newHive s.contentRewardPercent)
  let contentReward ← (if s.hasHardfork 17 then payRewardFunds contentReward else pure contentReward :
    FundsM Acc Int)
  let vestingReward ← fromExcept (percentOf newHive s.vestingRewardPercent)
  let dhfNewFunds ← fromExcept (percentOf newHive s.proposalFundPercent)
  let witnessReward ← fromExcept do
    ShareType.sub (← ShareType.sub (← ShareType.sub newHive contentReward) vestingReward) dhfNewFunds
  let witnessReward ← fromExcept (ShareType.mul witnessReward hiveMaxWitnesses)
  -- an unknown schedule type leaves the reward unweighted, with a warning
  let witnessReward ← (match s.scheduleWeight (s.schedule s.currentWitness) with
    | some weight => fromExcept (ShareType.mul witnessReward weight)
    | none => pure witnessReward : FundsM Acc Int)
  let witnessReward ← fromExcept (ShareType.div witnessReward s.witnessPayNormalizationFactor)
  let newHbd ← (if dhfNewFunds ≠ 0 then do
      let newHbd ← fromExcept (Asset.mulPrice ⟨dhfNewFunds, .hive⟩ s.currentMedianHistory)
      fundsOnChain (adjustBalance s.treasury newHbd)
      pure newHbd
    else pure ⟨0, .hbd⟩ : FundsM Acc Asset)
  let newHive ← fromExcept do ShareType.add (← ShareType.add contentReward vestingReward) witnessReward
  let s' ← get
  set (← fromExcept (creditGlobals s' contentReward vestingReward newHive dhfNewFunds newHbd))
  let _ ← fundsOnVesting (Vesting.adjustAccountVestingBalance s.currentWitness witnessReward false)

end Chain
end HiveChain
