import HiveChain.Chain.WithdrawRoutes

/-!
# HiveChain.Chain.Vesting

Vesting (`transfer_to_vesting_evaluator`, `withdraw_vesting_evaluator`,
`database::adjust_account_vesting_balance` and `database::process_vesting_withdrawals` with the
withdraw routes of `HiveChain.Chain.WithdrawRoutes`).

* Amounts are `share_type`, a `safe< int64_t >`: its sums, differences, negation and remainder
  throw outside `int64_t` (`ShareType`). `operator*( asset, price )` computes in `uint128_t`,
  comes back through `uint128_to_uint64`, and the `uint64_t` becomes an `int64_t` modulo `2 ^ 64`.
* The account fields are those of `account_object` that the functions use; a `modify` is a
  function that may throw, as its lambda may.
* The accounts are kept in `by_next_vesting_withdrawal` order, by `(next_vesting_withdrawal,
  name)`; the loop of `process_vesting_withdrawals` steps its iterator before it changes the
  account, so an account whose key moves behind the iterator waits for the next block.
* The main network builds: no SMT branch, and a power down larger than the balance is logged
  and cut to the balance. Resource credits, manabars, delayed votes, witness votes and virtual
  operations are not modelled.
* A constant of the source keeps its macro's name, in camel case (`HIVE_100_PERCENT` is
  `hive100Percent`).
-/

namespace HiveChain
namespace Chain

open EState

/-- `std::numeric_limits< int64_t >::max()`. -/
def int64Max : Int := 2 ^ 63 - 1

/-- `std::numeric_limits< int64_t >::min()`. -/
def int64Min : Int := -2 ^ 63

namespace ShareType

/-- `safe< int64_t >::operator+`. -/
def add (a b : Int) : Except String Int :=
  if 0 < b ∧ int64Max - b < a then .error "overflow_exception"
  else if b < 0 ∧ a < int64Min - b then .error "underflow_exception"
  else .ok (a + b)

/-- `safe< int64_t >::operator-`. -/
def sub (a b : Int) : Except String Int :=
  if 0 < b ∧ a < int64Min + b then .error "underflow_exception"
  else if b < 0 ∧ int64Max + b < a then .error "overflow_exception"
  else .ok (a - b)

/-- `safe< int64_t >::operator-()`. -/
def neg (a : Int) : Except String Int :=
  if a = int64Min then .error "overflow_exception" else .ok (-a)

/-- `safe< int64_t >::operator%`, the remainder of C++. -/
def mod (a b : Int) : Except String Int :=
  if b = 0 then .error "divide_by_zero_exception"
  else if a = int64Min ∧ b = -1 then .error "overflow_exception"
  else .ok (a.tmod b)

end ShareType

/-- An `int64_t` read as a `uint128_t`. -/
def uint128 (a : Int) : Nat := (a % 2 ^ 128).toNat

/-- `fc::uint128_to_uint64`. -/
def uint128ToUint64 (u : Nat) : Except String Nat :=
  if u ≤ 2 ^ 64 - 1 then .ok u else .error "u <= std::numeric_limits<uint64_t>::max()"

/-- The `int64_t` a `uint64_t` becomes. -/
def int64OfUint64 (u : Int) : Int := u.bmod (2 ^ 64)

/-- A `price` between VESTS and HIVE: `base` VESTS for `quote` HIVE. -/
structure VestsPrice where
  base : Int
  quote : Int
deriving DecidableEq, Repr

/-- `operator*( asset, price )` on the amounts: the magnitude times one side of the price, over
the other, in `uint128_t`; the sign put back on the `uint64_t`. -/
def mulPriceAmount (amount num den : Int) : Except String Int := do
  let result := amount.natAbs * uint128 num % 2 ^ 128 / uint128 den
  let r ← uint128ToUint64 result
  pure (int64OfUint64 (if amount < 0 then -(r : Int) else r))

/-- HIVE times the price: VESTS (`a.symbol == b.quote.symbol`). -/
def VestsPrice.hiveToVests (p : VestsPrice) (liquid : Int) : Except String Int :=
  mulPriceAmount liquid p.base p.quote

/-- VESTS times the price: HIVE (`a.symbol == b.base.symbol`). -/
def VestsPrice.vestsToHive (p : VestsPrice) (vests : Int) : Except String Int :=
  mulPriceAmount vests p.quote p.base

/-- `HIVE_VESTING_WITHDRAW_INTERVAL_SECONDS`, the cashout window of the main network. -/
def hiveVestingWithdrawIntervalSeconds : Nat := 60 * 60 * 24 * 7

def hiveVestingWithdrawIntervals : Int := 13

def hiveVestingWithdrawIntervalsPreHf16 : Int := 104

/-- `time_point_sec::maximum()`. -/
def timePointSecMaximum : Nat := 0xffffffff

/-- The fields of `account_object` that vesting reads and writes. -/
structure VestingAccount where
  balance : Int
  vestingShares : Int
  delegatedVestingShares : Int
  rewardHiveBalance : Int
  rewardVestingBalance : Int
  rewardVestingHive : Int
  vestingWithdrawRate : Int
  toWithdraw : Int
  withdrawn : Int
  nextVestingWithdrawal : Nat
deriving DecidableEq, Repr

/-- The symbols of the balances kept here. -/
inductive VestingSymbol where
  | hive
  | vests
deriving DecidableEq, Repr

namespace VestingAccount

/-- `get_balance`. -/
def getBalance (a : VestingAccount) : VestingSymbol → Int
  | .hive => a.balance
  | .vests => a.vestingShares

/-- `get_total_vesting_withdrawal`. -/
def getTotalVestingWithdrawal (a : VestingAccount) : Except String Int :=
  ShareType.sub a.toWithdraw a.withdrawn

/-- `has_active_power_down`. -/
def hasActivePowerDown (a : VestingAccount) : Bool := a.nextVestingWithdrawal ≠ timePointSecMaximum

/-- `get_next_vesting_withdrawal`. -/
def getNextVestingWithdrawal (a : VestingAccount) : Except String Int :=
  if a.hasActivePowerDown then do
    let total ← a.getTotalVestingWithdrawal
    pure (min a.vestingWithdrawRate total)
  else pure 0

/-- This week's `to_withdraw`: before `HIVE_HARDFORK_1_28_FIX_POWER_DOWN`, when less than the
rate is left, the remainder of the whole by the rate; never more than the account holds. -/
def withdrawalAmount (a : VestingAccount) (fixPowerDown : Bool) : Except String Int := do
  let toWithdraw ← a.getNextVestingWithdrawal
  let toWithdraw ←
    if ¬fixPowerDown ∧ toWithdraw < a.vestingWithdrawRate then
      ShareType.mod a.toWithdraw a.vestingWithdrawRate
    else pure toWithdraw
  pure (if a.vestingShares < toWithdraw then a.vestingShares else toWithdraw)

/-- The withdrawing account after its week: `to_withdraw` taken off its VESTS, `converted_hive`
paid to its balance, and the power down ended or moved a week on. -/
def withdrawStep (a : VestingAccount) (toWithdraw convertedHive : Int) :
    Except String VestingAccount := do
  let vestingShares ← ShareType.sub a.vestingShares toWithdraw
  let balance ← ShareType.add a.balance convertedHive
  let withdrawn ← ShareType.add a.withdrawn toWithdraw
  let a := { a with vestingShares, balance, withdrawn }
  let total ← a.getTotalVestingWithdrawal
  if total ≤ 0 ∨ a.vestingShares = 0 then
    pure { a with
      vestingWithdrawRate := 0
      nextVestingWithdrawal := timePointSecMaximum
      toWithdraw := 0
      withdrawn := 0 }
  else
    pure { a with nextVestingWithdrawal := a.nextVestingWithdrawal + hiveVestingWithdrawIntervalSeconds }

end VestingAccount

/-- The fields of `dynamic_global_property_object` that vesting reads and writes. -/
structure VestingGlobals where
  time : Nat
  totalVestingFundHive : Int
  totalVestingShares : Int
  pendingRewardedVestingShares : Int
  pendingRewardedVestingHive : Int
deriving DecidableEq, Repr

namespace VestingGlobals

/-- `get_vesting_share_price`. -/
def getVestingSharePrice (g : VestingGlobals) : VestsPrice :=
  if g.totalVestingFundHive = 0 ∨ g.totalVestingShares = 0 then ⟨1000000, 1000⟩
  else ⟨g.totalVestingShares, g.totalVestingFundHive⟩

/-- `get_reward_vesting_share_price`. -/
def getRewardVestingSharePrice (g : VestingGlobals) : Except String VestsPrice := do
  let base ← ShareType.add g.totalVestingShares g.pendingRewardedVestingShares
  let quote ← ShareType.add g.totalVestingFundHive g.pendingRewardedVestingHive
  pure ⟨base, quote⟩

/-- The vesting pool at the end of `adjust_account_vesting_balance`. -/
def addVesting (g : VestingGlobals) (liquid newVesting : Int) (toRewardBalance : Bool) :
    Except String VestingGlobals :=
  if toRewardBalance then do
    let shares ← ShareType.add g.pendingRewardedVestingShares newVesting
    let hive ← ShareType.add g.pendingRewardedVestingHive liquid
    pure { g with pendingRewardedVestingShares := shares, pendingRewardedVestingHive := hive }
  else do
    let hive ← ShareType.add g.totalVestingFundHive liquid
    let shares ← ShareType.add g.totalVestingShares newVesting
    pure { g with totalVestingFundHive := hive, totalVestingShares := shares }

/-- The vesting pool after VESTS are paid out in HIVE by `process_vesting_withdrawals`. -/
def removeVesting (g : VestingGlobals) (hive vests : Int) : Except String VestingGlobals := do
  let fund ← ShareType.sub g.totalVestingFundHive hive
  let shares ← ShareType.sub g.totalVestingShares vests
  pure { g with totalVestingFundHive := fund, totalVestingShares := shares }

end VestingGlobals

/-- `calculate_vesting` for HIVE. -/
def calculateVesting (g : VestingGlobals) (liquid : Int) (toRewardBalance : Bool) :
    Except String Int := do
  let p ← if toRewardBalance then g.getRewardVestingSharePrice else pure g.getVestingSharePrice
  p.hiveToVests liquid

/-- The accounts with the vesting fields, the routes, and the global properties. -/
structure VestingState (Acc : Type) where
  routing : RoutesState Acc
  accounts : List Acc
  account : Acc → VestingAccount
  globals : VestingGlobals

abbrev VestingM (Acc : Type) := EStateM String (VestingState Acc)

variable {Acc : Type} [LinearOrder Acc]

/-- The routes of an account in `by_withdraw_route` order. -/
def VestingState.routesOf (s : VestingState Acc) (a : Acc) : List (WithdrawRoute Acc) :=
  (s.routing.routes.filter fun r => r.fromAccount = a).mergeSort fun r q =>
    decide (r.toAccount ≤ q.toAccount)

/-- The `by_next_vesting_withdrawal` key of an account. -/
def VestingState.withdrawalKey (s : VestingState Acc) (a : Acc) : Nat × Acc :=
  ((s.account a).nextVestingWithdrawal, a)

/-- The order of `by_next_vesting_withdrawal`. -/
def withdrawalKeyLt (k k' : Nat × Acc) : Bool := k.1 < k'.1 || (k.1 == k'.1 && k.2 < k'.2)

/-- The first account of the index after `key`, or the first of all: where the iterator stands. -/
def VestingState.firstAfter (s : VestingState Acc) (key : Option (Nat × Acc)) : Option Acc :=
  s.accounts.foldl (fun best a =>
    if (key.all fun k => withdrawalKeyLt k (s.withdrawalKey a)) &&
        (best.all fun b => withdrawalKeyLt (s.withdrawalKey a) (s.withdrawalKey b)) then some a
    else best) none

/-- The new `vesting_withdraw_rate` of `withdraw_vesting_evaluator`. -/
def newVestingWithdrawRate (hardfork : Nat) (vestingShares : Int) : Int :=
  let intervals :=
    if 16 ≤ hardfork then hiveVestingWithdrawIntervals else hiveVestingWithdrawIntervalsPreHf16
  let rate := vestingShares / intervals
  let rate := if rate = 0 then 1 else rate
  if 21 ≤ hardfork ∧ rate * intervals < vestingShares then rate + 1 else rate

/-! The functions of `database` and the evaluators, on the vesting state. -/

namespace Vesting

/-- `modify` of an account. -/
def modifyAccount (a : Acc) (f : VestingAccount → Except String VestingAccount) :
    VestingM Acc Unit := do
  let s ← get
  let acc ← fromExcept (f (s.account a))
  set { s with account := Function.update s.account a acc }

/-- `modify` of the dynamic global properties. -/
def modifyGlobals (f : VestingGlobals → Except String VestingGlobals) : VestingM Acc Unit := do
  let s ← get
  let g ← fromExcept (f s.globals)
  set { s with globals := g }

/-- `modify_balance`. -/
def modifyBalance (a : Acc) (symbol : VestingSymbol) (delta : Int) (checkBalance : Bool) :
    VestingM Acc Unit :=
  modifyAccount a fun acc =>
    match symbol with
    | .hive => do
      let balance ← ShareType.add acc.balance delta
      if checkBalance ∧ balance < 0 then throw "Insufficient HIVE funds"
      pure { acc with balance }
    | .vests => do
      let vestingShares ← ShareType.add acc.vestingShares delta
      if checkBalance ∧ vestingShares < 0 then throw "Insufficient VESTS funds"
      pure { acc with vestingShares }

/-- `adjust_balance`; the balance may not go negative from `HIVE_HARDFORK_0_20__1811` on. -/
def adjustBalance (a : Acc) (symbol : VestingSymbol) (delta : Int) : VestingM Acc Unit := do
  let s ← get
  if delta < 0 then
    let required ← fromExcept (ShareType.neg delta)
    if (s.account a).getBalance symbol < required then
      throw "Account ${acc} does not have sufficient funds for balance adjustment. Required: ${r}, Available: ${a}"
  modifyBalance a symbol delta (decide (20 ≤ s.routing.hardfork))

/-- `adjust_reward_balance` with a HIVE value and a VESTS share. -/
def adjustRewardBalance (a : Acc) (valueDelta shareDelta : Int) : VestingM Acc Unit := do
  let s ← get
  let checkBalance := decide (20 ≤ s.routing.hardfork)
  modifyAccount a fun acc =>
    if shareDelta = 0 then do
      let rewardHiveBalance ← ShareType.add acc.rewardHiveBalance valueDelta
      if checkBalance ∧ rewardHiveBalance < 0 then throw "Insufficient reward HIVE funds"
      pure { acc with rewardHiveBalance }
    else do
      let rewardVestingHive ← ShareType.add acc.rewardVestingHive valueDelta
      let rewardVestingBalance ← ShareType.add acc.rewardVestingBalance shareDelta
      if checkBalance ∧ rewardVestingBalance < 0 then throw "Insufficient reward VESTS funds"
      pure { acc with rewardVestingHive, rewardVestingBalance }

/-- `adjust_account_vesting_balance` for HIVE, with the callback that does nothing. -/
def adjustAccountVestingBalance (toAccount : Acc) (liquid : Int) (toRewardBalance : Bool) :
    VestingM Acc Int := do
  let s ← get
  let newVesting ← fromExcept (calculateVesting s.globals liquid toRewardBalance)
  if toRewardBalance then adjustRewardBalance toAccount liquid newVesting
  else adjustBalance toAccount .vests newVesting
  modifyGlobals fun g => g.addVesting liquid newVesting toRewardBalance
  pure newVesting

/-- `transfer_to_vesting_evaluator`; the sender receives when the operation names no one. Before
`HIVE_HARDFORK_1_24` the evaluator goes through `create_vesting`, which makes the same change here. -/
def transferToVesting (fromAccount : Acc) (toAccount : Option Acc) (amount : Int) :
    VestingM Acc Unit := do
  let s ← get
  if 21 ≤ s.routing.hardfork ∧ toAccount = some s.routing.treasury then
    throw "Can only transfer HBD to ${s}"
  let delta ← fromExcept (ShareType.neg amount)
  adjustBalance fromAccount .hive delta
  let _ ← adjustAccountVestingBalance (toAccount.getD fromAccount) amount false

/-- `withdraw_vesting_evaluator`. -/
def withdrawVesting (account : Acc) (vestingShares : Int) : VestingM Acc Unit := do
  let s ← get
  let hardfork := s.routing.hardfork
  let acc := s.account account
  if vestingShares < 0 then
    if 20 ≤ hardfork then throw "Cannot withdraw negative VESTS. account: ${account}, vests:${vests}"
  else
    if acc.vestingShares < 0 then
      throw "Account does not have sufficient Hive Power for withdraw."
    let available ← fromExcept (ShareType.sub acc.vestingShares acc.delegatedVestingShares)
    if available < vestingShares then
      throw "Account does not have sufficient Hive Power for withdraw."
    if vestingShares = 0 then
      if 28 ≤ hardfork then
        if ¬acc.hasActivePowerDown then
          throw "This operation would not change the vesting withdraw rate."
      else if 5 ≤ hardfork then
        if acc.vestingWithdrawRate = 0 then
          throw "This operation would not change the vesting withdraw rate."
      modifyAccount account fun a => pure { a with
        vestingWithdrawRate := 0
        nextVestingWithdrawal := timePointSecMaximum
        toWithdraw := 0
        withdrawn := 0 }
    else
      let rate := newVestingWithdrawRate hardfork vestingShares
      if 28 ≤ hardfork then
        if acc.vestingWithdrawRate = rate ∧ acc.hasActivePowerDown then
          throw "This operation would not change the vesting withdraw rate."
      else if 5 ≤ hardfork then
        if acc.vestingWithdrawRate = rate then
          throw "This operation would not change the vesting withdraw rate."
      modifyAccount account fun a => pure { a with
        vestingWithdrawRate := rate
        nextVestingWithdrawal := s.globals.time + hiveVestingWithdrawIntervalSeconds
        toWithdraw := vestingShares
        withdrawn := 0 }

/-- One route of a pass of `process_routing`: `to_withdraw * percent / HIVE_100_PERCENT` VESTS go
to `to_account`, as VESTS in the vesting pass, as HIVE at the price of the moment in the other.
Returns `vests_deposited`. -/
def routeWithdrawal (toWithdraw : Int) (autoVestMode : Bool) (deposited : Int)
    (r : WithdrawRoute Acc) : VestingM Acc Int :=
  if autoVestMode = r.autoVest then do
    let toDeposit ← fromExcept
      (uint128ToUint64 (uint128 toWithdraw * r.percent.toNat % 2 ^ 128 / hive100Percent))
    let toDeposit := int64OfUint64 toDeposit
    let deposited ← fromExcept (ShareType.add deposited toDeposit)
    if 0 < toDeposit then
      if autoVestMode then
        modifyAccount r.toAccount fun a => do
          let vestingShares ← ShareType.add a.vestingShares toDeposit
          pure { a with vestingShares }
      else
        let s ← get
        let routed ← fromExcept (s.globals.getVestingSharePrice.vestsToHive toDeposit)
        modifyAccount r.toAccount fun a => do
          let balance ← ShareType.add a.balance routed
          pure { a with balance }
        modifyGlobals fun g => g.removeVesting routed toDeposit
    pure deposited
  else pure deposited

/-- `process_routing`: one pass over the routes of `fromAccount`. -/
def processRouting (fromAccount : Acc) (toWithdraw : Int) (autoVestMode : Bool)
    (deposited : Int) : VestingM Acc Int := do
  let s ← get
  (s.routesOf fromAccount).foldlM (routeWithdrawal toWithdraw autoVestMode) deposited

/-- The body of the loop of `process_vesting_withdrawals`: the routes that vest, those paid in
HIVE, then the rest paid to the account itself. -/
def processVestingWithdrawal (fromAccount : Acc) : VestingM Acc Unit := do
  let s ← get
  let toWithdraw ← fromExcept
    ((s.account fromAccount).withdrawalAmount (decide (28 ≤ s.routing.hardfork)))
  let deposited ← processRouting fromAccount toWithdraw true 0
  let deposited ← processRouting fromAccount toWithdraw false deposited
  let toConvert ← fromExcept (ShareType.sub toWithdraw deposited)
  if toConvert < 0 then throw "Deposited more vests than were supposed to be withdrawn"
  let s ← get
  let convertedHive ← fromExcept (s.globals.getVestingSharePrice.vestsToHive toConvert)
  modifyAccount fromAccount fun a => a.withdrawStep toWithdraw convertedHive
  modifyGlobals fun g => g.removeVesting convertedHive toConvert

/-- The loop of `process_vesting_withdrawals` from the account the iterator stands on; the
iterator is stepped before the account is changed. -/
def processVestingWithdrawalsLoop (now : Nat) : Nat → Option Acc → VestingM Acc Unit
  | 0, _ => pure ()
  | _ + 1, none => pure ()
  | fuel + 1, some a => do
    let s ← get
    if (s.account a).nextVestingWithdrawal ≤ now then
      let current := s.firstAfter (some (s.withdrawalKey a))
      processVestingWithdrawal a
      processVestingWithdrawalsLoop now fuel current

/-- `database::process_vesting_withdrawals`. Each round moves the account's key a week on or to
`time_point_sec::maximum()`, so an account is taken at most `now / interval + 1` times. -/
def processVestingWithdrawals : VestingM Acc Unit := do
  let s ← get
  let now := s.globals.time
  processVestingWithdrawalsLoop now
    (s.accounts.length * (now / hiveVestingWithdrawIntervalSeconds + 1)) (s.firstAfter none)

end Vesting

/-- The operations on vesting, and the block step that pays the power downs. -/
inductive VestingOp (Acc : Type) where
  | transferToVesting (fromAccount : Acc) (toAccount : Option Acc) (amount : Int)
  | withdrawVesting (account : Acc) (vestingShares : Int)
  | setWithdrawVestingRoute (op : SetWithdrawVestingRouteOperation Acc)
  | processVestingWithdrawals (now : Nat)

/-- `validate` of an operation, then its evaluator; the block step at its head time. -/
def VestingOp.apply : VestingOp Acc → VestingM Acc Unit
  | .transferToVesting fromAccount toAccount amount => do
    if ¬0 < amount then throw "Must transfer a nonzero amount"
    Vesting.transferToVesting fromAccount toAccount amount
  | .withdrawVesting account vestingShares => Vesting.withdrawVesting account vestingShares
  | .setWithdrawVestingRoute op =>
    focus VestingState.routing (fun s r => { s with routing := r }) op.apply
  | .processVestingWithdrawals now => do
    modify fun s => { s with globals := { s.globals with time := now } }
    Vesting.processVestingWithdrawals

/-- An operation in its own transaction, a block step in its block: what throws is undone. -/
def VestingOp.run (op : VestingOp Acc) (s : VestingState Acc) : VestingState Acc :=
  match op.apply.run s with
  | .ok _ s' => s'
  | .error _ _ => s

def runVestingOps (ops : List (VestingOp Acc)) (s : VestingState Acc) : VestingState Acc :=
  ops.foldl (fun s op => op.run s) s

end Chain
end HiveChain
