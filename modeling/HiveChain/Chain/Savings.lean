import HiveChain.Chain.MarketSpec

/-!
# HiveChain.Chain.Savings

Savings and savings withdrawals (`transfer_to_savings`, `transfer_from_savings` and
`cancel_transfer_from_savings` evaluators, `database::process_savings_withdraws` and
`database::adjust_savings_balance`).

* A withdrawal (`savings_withdraw_object`) keeps its `from`, `to`, `request_id`, `amount` and
  `complete`; the memo is not modelled. Its key is `(from, request_id)`.
* The savings balances sit next to the liquid ones of the market model. `adjust_savings_balance`
  pays the interest on savings HBD at every hardfork, adding it to `current_hbd_supply`.
* `process_savings_withdraws` takes the due withdrawals by `complete`; those due at one time are
  taken in index order.
* A constant of the source keeps its macro's name, in camel case (`HIVE_100_PERCENT` is
  `hive100Percent`).
-/

namespace HiveChain
namespace Chain

open EState KeyedList

/-- `savings_withdraw_object`. -/
structure SavingsWithdraw (Acc : Type) where
  fromAcc : Acc
  toAcc : Acc
  requestId : Nat
  amount : Asset
  complete : Nat

/-- The `by_from_rid` key. -/
def SavingsWithdraw.key {Acc : Type} (w : SavingsWithdraw Acc) : Acc × Nat := (w.fromAcc, w.requestId)

def hiveSavingsWithdrawRequestLimit : Nat := 100

def hiveSavingsWithdrawTime : Nat := 60 * 60 * 24 * 3

/-- The balances of the market model with the savings fields of the accounts, the withdrawal
index, its `savings_withdraw_requests` counter, and the treasury account. -/
structure SavingsState (Acc : Type) where
  chain : MarketState Acc
  treasury : Acc
  savingsBalance : Acc → Int
  savingsHbdBalance : Acc → Int
  savingsHbdSeconds : Acc → Nat
  savingsHbdSecondsLastUpdate : Acc → Nat
  savingsHbdLastInterestPayment : Acc → Nat
  withdraws : List (SavingsWithdraw Acc)
  savingsWithdrawRequests : Acc → Nat

abbrev SavingsM (Acc : Type) := EStateM String (SavingsState Acc)

variable {Acc : Type} [DecidableEq Acc]

namespace SavingsState

/-- `get_savings_balance`. -/
def getSavingsBalance (s : SavingsState Acc) (a : Acc) : Symbol → Int
  | .hive => s.savingsBalance a
  | .hbd => s.savingsHbdBalance a

end SavingsState

/-- A function of the balances run on the savings state. -/
def savingsOnChain {α : Type} (m : MarketM Acc α) : SavingsM Acc α :=
  focus SavingsState.chain (fun s c => { s with chain := c }) m

/-- The part of `adjust_savings_balance` that brings the account's `savings_hbd_seconds` up to
date and pays the interest on its savings HBD once a compounding interval has passed. -/
def savingsHbdInterest (s : SavingsState Acc) (a : Acc) : SavingsState Acc :=
  if s.savingsHbdSecondsLastUpdate a ≠ s.chain.headBlockTime then
    let seconds := s.savingsHbdSeconds a +
      (s.savingsHbdBalance a).toNat * (s.chain.headBlockTime - s.savingsHbdSecondsLastUpdate a)
    if 0 < seconds ∧
        hbdInterestCompoundIntervalSec < s.chain.headBlockTime - s.savingsHbdLastInterestPayment a
    then
      let interest : Int := seconds / hiveSecondsPerYear * s.chain.hbdInterestRate / hive100Percent
      { s with
        savingsHbdBalance := Function.update s.savingsHbdBalance a (s.savingsHbdBalance a + interest)
        savingsHbdSeconds := Function.update s.savingsHbdSeconds a 0
        savingsHbdSecondsLastUpdate :=
          Function.update s.savingsHbdSecondsLastUpdate a s.chain.headBlockTime
        savingsHbdLastInterestPayment :=
          Function.update s.savingsHbdLastInterestPayment a s.chain.headBlockTime
        chain := { s.chain with currentHbdSupply := s.chain.currentHbdSupply + interest } }
    else
      { s with
        savingsHbdSeconds := Function.update s.savingsHbdSeconds a seconds
        savingsHbdSecondsLastUpdate :=
          Function.update s.savingsHbdSecondsLastUpdate a s.chain.headBlockTime }
  else s

/-- `adjust_savings_balance`; from `HIVE_HARDFORK_0_20__1811` on the balance may not go
negative. -/
def adjustSavingsBalance (a : Acc) (delta : Asset) : SavingsM Acc Unit := do
  let s ← get
  let checkBalance := s.chain.hasHardfork 20
  match delta.symbol with
  | .hive =>
    modify fun s =>
      { s with savingsBalance := Function.update s.savingsBalance a (s.savingsBalance a + delta.amount) }
    let s ← get
    if checkBalance ∧ s.savingsBalance a < 0 then throw "Insufficient savings HIVE funds"
  | .hbd =>
    modify fun s => savingsHbdInterest s a
    modify fun s =>
      { s with
        savingsHbdBalance := Function.update s.savingsHbdBalance a (s.savingsHbdBalance a + delta.amount) }
    let s ← get
    if checkBalance ∧ s.savingsHbdBalance a < 0 then throw "Insufficient savings HBD funds"

/-- `transfer_to_savings_evaluator`. -/
def transferToSavings (fromAcc toAcc : Acc) (amount : Asset) : SavingsM Acc Unit := do
  let s ← get
  if s.chain.hasHardfork 21 ∧ toAcc = s.treasury then throw "Cannot transfer savings to ${s}"
  savingsOnChain (adjustBalance fromAcc ⟨-amount.amount, amount.symbol⟩)
  adjustSavingsBalance toAcc amount

/-- `transfer_from_savings_evaluator`. -/
def transferFromSavings (fromAcc toAcc : Acc) (requestId : Nat) (amount : Asset) :
    SavingsM Acc Unit := do
  let s ← get
  if hiveSavingsWithdrawRequestLimit ≤ s.savingsWithdrawRequests fromAcc then
    throw "Account has reached limit for pending withdraw requests."
  if s.chain.hasHardfork 21 ∧ ¬(amount.symbol = .hbd ∨ toAcc ≠ s.treasury) then
    throw "Can only transfer HBD to ${s}"
  if s.getSavingsBalance fromAcc amount.symbol < amount.amount then
    throw "_db.get_savings_balance( from, op.amount.symbol ) >= op.amount"
  adjustSavingsBalance fromAcc ⟨-amount.amount, amount.symbol⟩
  let s ← get
  if s.withdraws.any fun w => w.key = (fromAcc, requestId) then
    throw "could not insert object, most likely a uniqueness constraint was violated"
  modify fun s => { s with
    withdraws := s.withdraws ++
      [⟨fromAcc, toAcc, requestId, amount, s.chain.headBlockTime + hiveSavingsWithdrawTime⟩] }
  modify fun s => { s with
    savingsWithdrawRequests :=
      Function.update s.savingsWithdrawRequests fromAcc (s.savingsWithdrawRequests fromAcc + 1) }

/-- `get_savings_withdraw( from, request_id )`. -/
def getSavingsWithdraw (fromAcc : Acc) (requestId : Nat) : SavingsM Acc (SavingsWithdraw Acc) := do
  let s ← get
  match s.withdraws.find? (fun w => w.key = (fromAcc, requestId)) with
  | some w => pure w
  | none => throw "unknown key: ${key} of type: ${kt} at multiindex lookup: ${multiindex}"

/-- The withdrawal of a key taken out of the index, and out of the count of its `from`. -/
def removeSavingsWithdraw (w : SavingsWithdraw Acc) : SavingsM Acc Unit := do
  modify fun s => { s with withdraws := s.withdraws.filter fun c => c.key ≠ w.key }
  modify fun s => { s with
    savingsWithdrawRequests :=
      Function.update s.savingsWithdrawRequests w.fromAcc (s.savingsWithdrawRequests w.fromAcc - 1) }

/-- `cancel_transfer_from_savings_evaluator`. -/
def cancelTransferFromSavings (fromAcc : Acc) (requestId : Nat) : SavingsM Acc Unit := do
  let swo ← getSavingsWithdraw fromAcc requestId
  adjustSavingsBalance swo.fromAcc swo.amount
  removeSavingsWithdraw swo

/-- The withdrawals `process_savings_withdraws` completes, in the order it completes them. -/
def dueSavingsWithdraws (s : SavingsState Acc) : List (SavingsWithdraw Acc) :=
  (s.withdraws.filter fun w => decide (w.complete ≤ s.chain.headBlockTime)).mergeSort
    fun w₁ w₂ => decide (w₁.complete ≤ w₂.complete)

/-- `process_savings_withdraws`: every due withdrawal pays `to` and is removed. -/
def processSavingsWithdraws : SavingsM Acc Unit := do
  let s ← get
  (dueSavingsWithdraws s).forM fun w => do
    savingsOnChain (adjustBalance w.toAcc w.amount)
    removeSavingsWithdraw w

/-- The savings operations, and the block step that completes withdrawals. -/
inductive SavingsOp (Acc : Type) where
  | transferToSavings (fromAcc toAcc : Acc) (amount : Asset)
  | transferFromSavings (fromAcc toAcc : Acc) (requestId : Nat) (amount : Asset)
  | cancelTransferFromSavings (fromAcc : Acc) (requestId : Nat)
  | processSavingsWithdraws

/-- `validate` of the operation, then its evaluator. -/
def SavingsOp.apply : SavingsOp Acc → SavingsM Acc Unit
  | .transferToSavings fromAcc toAcc amount => do
    if amount.amount ≤ 0 then throw "amount.amount > 0"
    Chain.transferToSavings fromAcc toAcc amount
  | .transferFromSavings fromAcc toAcc requestId amount => do
    if amount.amount ≤ 0 then throw "amount.amount > 0"
    Chain.transferFromSavings fromAcc toAcc requestId amount
  | .cancelTransferFromSavings fromAcc requestId => Chain.cancelTransferFromSavings fromAcc requestId
  | .processSavingsWithdraws => Chain.processSavingsWithdraws

/-- An operation in its own transaction: what it throws undoes it. -/
def SavingsOp.run (op : SavingsOp Acc) (s : SavingsState Acc) : SavingsState Acc :=
  match op.apply.run s with
  | .ok _ s' => s'
  | .error _ _ => s

end Chain
end HiveChain
