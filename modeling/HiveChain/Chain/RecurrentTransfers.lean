import HiveChain.Chain.MarketSpec
import HiveChain.Lib.KeyedList

/-!
# HiveChain.Chain.RecurrentTransfers

Recurrent transfers (`recurrent_transfer_evaluator` and `database::process_recurrent_transfers`):
the objects of the `recurrent_transfer_index` and the `open_recurrent_transfers` counter of their
`from` accounts.

* An object keeps its id, `trigger_date`, `from_id`, `to_id`, `amount`, `recurrence`,
  `remaining_executions`, `consecutive_failures` and `pair_id`; the memo is not modelled. Its
  `by_from_to_id` key is `(from_id, to_id, pair_id)`, its `by_trigger_date` key
  `(trigger_date, id)`.
* The hours of `get_final_trigger_date` are multiplied in `int`, so the product is the exact one
  reduced to 32 bits (`Int.bmod`), and the seconds are cut back to the `uint32_t` of a
  `time_point_sec`. The other date sums stay below `2 ^ 32` until 2106 and are kept exact.
* `process_recurrent_transfers` walks the `by_trigger_date` index with an iterator moved on
  before the current object is changed: the loop carries the next object, found in the index as it
  stood before the change.
* A constant of the source keeps its macro's name, in camel case (`HIVE_100_PERCENT` is
  `hive100Percent`).
-/

namespace HiveChain
namespace Chain

open EState KeyedList

/-- `recurrent_transfer_object`. -/
structure RecurrentTransfer (Acc : Type) where
  id : Nat
  triggerDate : Nat
  fromId : Acc
  toId : Acc
  amount : Asset
  recurrence : UInt16
  remainingExecutions : UInt16
  consecutiveFailures : UInt8
  pairId : UInt8

namespace RecurrentTransfer

variable {Acc : Type}

/-- The `by_from_to_id` key. -/
def key (t : RecurrentTransfer Acc) : Acc × Acc × UInt8 := (t.fromId, t.toId, t.pairId)

/-- `a` comes before `b` in the `by_trigger_date` index. -/
def before (a b : RecurrentTransfer Acc) : Bool :=
  a.triggerDate < b.triggerDate || (a.triggerDate == b.triggerDate && a.id < b.id)

/-- `update_next_trigger_date`. -/
def nextTriggerDate (t : RecurrentTransfer Acc) : Nat := t.triggerDate + 3600 * t.recurrence.toNat

/-- `get_final_trigger_date`: `recurrence * (remaining_executions - 1)` is an `int`, and the
sum is cut back to a `time_point_sec`. -/
def getFinalTriggerDate (t : RecurrentTransfer Acc) : Nat :=
  ((t.triggerDate + 3600 * Int.bmod (t.recurrence.toNat * ((t.remainingExecutions.toNat : Int) - 1))
    (2 ^ 32)) % 2 ^ 32).toNat

/-- `set_recurrence_trigger_date`: a new recurrence starts counting from the head block. -/
def setRecurrenceTriggerDate (t : RecurrentTransfer Acc) (headBlockTime : Nat) (recurrence : UInt16) :
    RecurrentTransfer Acc :=
  { t with
    triggerDate := if recurrence ≠ t.recurrence then headBlockTime + 3600 * recurrence.toNat
      else t.triggerDate
    recurrence }

end RecurrentTransfer

def hiveMaxOpenRecurrentTransfers : Nat := 255

def hiveMaxConsecutiveRecurrentTransferFailures : UInt8 := 10

def hiveMaxRecurrentTransfersPerBlock : Nat := 1000

/-- `HIVE_MAX_RECURRENT_TRANSFER_END_DATE`, in days. -/
def hiveMaxRecurrentTransferEndDate : Nat := 730

/-- `HIVE_MIN_RECURRENT_TRANSFERS_RECURRENCE`, in hours. -/
def hiveMinRecurrentTransfersRecurrence : Nat := 24

/-- An extension of `recurrent_transfer_operation`. -/
inductive RecurrentTransferExtension where
  | voidT
  | recurrentTransferPairId (pairId : UInt8)

/-- The balances of the market model, the recurrent transfers, the `open_recurrent_transfers`
counter of the accounts and the next object id. -/
structure RecurrentState (Acc : Type) where
  chain : MarketState Acc
  transfers : List (RecurrentTransfer Acc)
  openRecurrentTransfers : Acc → Nat
  nextId : Nat

abbrev RecurrentM (Acc : Type) := EStateM String (RecurrentState Acc)

variable {Acc : Type} [DecidableEq Acc]

/-- A function of the balances run on the recurrent-transfer state. -/
def recurrentOnChain {α : Type} (m : MarketM Acc α) : RecurrentM Acc α :=
  focus RecurrentState.chain (fun s c => { s with chain := c }) m

/-- `recurrent_transfer_extension_visitor`: the last `pair_id` given, which needs
`HIVE_HARDFORK_1_28`. -/
def visitExtensions (hf28 : Bool) : List RecurrentTransferExtension → UInt8 → Except String UInt8
  | [], pairId => .ok pairId
  | .voidT :: es, pairId => visitExtensions hf28 es pairId
  | .recurrentTransferPairId p :: es, _ =>
    if hf28 then visitExtensions hf28 es p
    else .error "recurrent_transfer_pair_id extension requires hardfork ${hf}"

/-- The legacy check before `HIVE_HARDFORK_1_28`: `recurrence * executions` hours, an `int`
product, under `HIVE_MAX_RECURRENT_TRANSFER_END_DATE` days. -/
def legacyDurationOk (recurrence executions : UInt16) : Bool :=
  decide (3600 * Int.bmod (recurrence.toNat * executions.toNat) (2 ^ 32) <
    (hiveMaxRecurrentTransferEndDate * 86400 : Nat))

/-- The end-date check of the evaluator: the final trigger date no later than
`HIVE_MAX_RECURRENT_TRANSFER_END_DATE` days after the head block. -/
def endDateOk (t : RecurrentTransfer Acc) (headBlockTime : Nat) : Bool :=
  decide (t.getFinalTriggerDate ≤ (headBlockTime + hiveMaxRecurrentTransferEndDate * 86400) % 2 ^ 32)

/-- A recurrent transfer removed, and uncounted from its `from` account. -/
def removeRecurrentTransfer (t : RecurrentTransfer Acc) : RecurrentM Acc Unit := do
  modify fun s => { s with transfers := s.transfers.filter fun c => c.id ≠ t.id }
  let s ← get
  if ¬0 < s.openRecurrentTransfers t.fromId then throw "a.open_recurrent_transfers > 0"
  modify fun s => { s with
    openRecurrentTransfers :=
      Function.update s.openRecurrentTransfers t.fromId (s.openRecurrentTransfers t.fromId - 1) }

/-- `recurrent_transfer_evaluator`. -/
def recurrentTransfer (fromAcc toAcc : Acc) (amount : Asset) (recurrence executions : UInt16)
    (extensions : List RecurrentTransferExtension) : RecurrentM Acc Unit := do
  let s ← get
  if ¬s.chain.hasHardfork 25 then throw "Recurrent transfers are not enabled until hardfork ${hf}"
  if s.chain.hasHardfork 28 = false ∧ legacyDurationOk recurrence executions = false then
    throw "Cannot set a transfer that would last for longer than ${days} days"
  if s.chain.getBalance fromAcc amount.symbol < amount.amount then
    throw "Account does not have enough tokens for the first transfer, has ${has} needs ${needs}"
  let rtpId ← fromExcept (visitExtensions (s.chain.hasHardfork 28) extensions 0)
  match s.transfers.find? (fun t => t.key = (fromAcc, toAcc, rtpId)) with
  | none =>
    if hiveMaxOpenRecurrentTransfers ≤ s.openRecurrentTransfers fromAcc then
      throw "Account can\x27t have more than ${rt} recurrent transfers"
    if amount.amount = 0 then throw "Cannot create a recurrent transfer with 0 amount"
    let t : RecurrentTransfer Acc :=
      ⟨s.nextId, s.chain.headBlockTime, fromAcc, toAcc, amount, recurrence, executions, 0, rtpId⟩
    modify fun s => { s with transfers := s.transfers ++ [t], nextId := s.nextId + 1 }
    if endDateOk t s.chain.headBlockTime = false then
      throw "Cannot set a transfer that would last for longer than ${days} days"
    modify fun s => { s with
      openRecurrentTransfers :=
        Function.update s.openRecurrentTransfers fromAcc (s.openRecurrentTransfers fromAcc + 1) }
  | some t =>
    if amount.amount = 0 then
      removeRecurrentTransfer t
    else
      let t' := { t.setRecurrenceTriggerDate s.chain.headBlockTime recurrence with
        amount, remainingExecutions := executions }
      modify fun s => { s with transfers := updateKey RecurrentTransfer.id s.transfers t.id fun _ => t' }
      if endDateOk t' s.chain.headBlockTime = false then
        throw "Cannot set a transfer that would last for longer than ${days} days"

/-- One due recurrent transfer of `process_recurrent_transfers`: paid if the balance allows,
counted as a failure otherwise, and removed after its last execution or its tenth failure in a
row. -/
def processRecurrentTransfer (t : RecurrentTransfer Acc) : RecurrentM Acc Unit := do
  let s ← get
  let available := s.chain.getBalance t.fromId t.amount.symbol
  if ¬0 < t.remainingExecutions then throw "current_recurrent_transfer.remaining_executions > 0"
  let remainingExecutions := t.remainingExecutions - 1
  if t.amount.amount ≤ available then
    recurrentOnChain (adjustBalance t.fromId ⟨-t.amount.amount, t.amount.symbol⟩)
    recurrentOnChain (adjustBalance t.toId t.amount)
    if remainingExecutions = 0 then
      removeRecurrentTransfer t
    else
      modify fun s => { s with
        transfers := updateKey RecurrentTransfer.id s.transfers t.id fun rt =>
          { rt with consecutiveFailures := 0, triggerDate := rt.nextTriggerDate, remainingExecutions } }
  else
    let consecutiveFailures := t.consecutiveFailures + 1
    if consecutiveFailures < hiveMaxConsecutiveRecurrentTransferFailures then
      if remainingExecutions = 0 then
        removeRecurrentTransfer t
      else
        modify fun s => { s with
          transfers := updateKey RecurrentTransfer.id s.transfers t.id fun rt =>
            { rt with
              consecutiveFailures := rt.consecutiveFailures + 1
              triggerDate := rt.nextTriggerDate
              remainingExecutions } }
    else
      removeRecurrentTransfer t

/-- The first object of the `by_trigger_date` index after `after` (after none: the first of
all), where the iterator goes. -/
def firstByTriggerDate (ts : List (RecurrentTransfer Acc)) (after : Option (RecurrentTransfer Acc)) :
    Option (RecurrentTransfer Acc) :=
  ts.foldl (fun best c =>
    if after.all (fun a => a.before c) && best.all (fun b => c.before b) then some c else best) none

/-- The loop of `process_recurrent_transfers`, with the transfers it may still process and the
object its iterator is on. -/
def processRecurrentTransfersLoop (now : Nat) :
    Nat → Option (RecurrentTransfer Acc) → RecurrentM Acc Unit
  | _, none => pure ()
  | left, some t =>
    if t.triggerDate ≤ now then
      match left with
      | 0 => pure ()
      | left + 1 => do
        let s ← get
        -- `++itr` before the object is changed
        let next := firstByTriggerDate s.transfers (some t)
        processRecurrentTransfer t
        processRecurrentTransfersLoop now left next
    else pure ()

/-- `database::process_recurrent_transfers`. -/
def processRecurrentTransfers : RecurrentM Acc Unit := do
  let s ← get
  if s.chain.hasHardfork 25 then
    processRecurrentTransfersLoop s.chain.headBlockTime hiveMaxRecurrentTransfersPerBlock
      (firstByTriggerDate s.transfers none)

/-- The recurrent transfer operation and the block step that executes the due transfers. -/
inductive RecurrentOp (Acc : Type) where
  | recurrentTransfer (fromAcc toAcc : Acc) (amount : Asset) (recurrence executions : UInt16)
      (extensions : List RecurrentTransferExtension)
  | processRecurrentTransfers

/-- `validate` of the operation, then its evaluator. -/
def RecurrentOp.apply : RecurrentOp Acc → RecurrentM Acc Unit
  | .recurrentTransfer fromAcc toAcc amount recurrence executions extensions => do
    if amount.amount < 0 then throw "Cannot transfer a negative amount (aka: stealing)"
    if recurrence.toNat < hiveMinRecurrentTransfersRecurrence then
      throw "Cannot set a transfer recurrence that is less than ${recurrence} hours"
    if fromAcc = toAcc then throw "Cannot set a transfer to yourself"
    if executions < 2 then
      throw "Executions must be at least 2, if you set executions to 1 the recurrent transfer will execute immediately and delete itself. You should use a normal transfer operation"
    Chain.recurrentTransfer fromAcc toAcc amount recurrence executions extensions
  | .processRecurrentTransfers => Chain.processRecurrentTransfers

/-- An operation in its own transaction: what it throws undoes it. -/
def RecurrentOp.run (op : RecurrentOp Acc) (s : RecurrentState Acc) : RecurrentState Acc :=
  match op.apply.run s with
  | .ok _ s' => s'
  | .error _ _ => s

/-- The operations applied one after the other. -/
def runRecurrentOps (ops : List (RecurrentOp Acc)) (s : RecurrentState Acc) : RecurrentState Acc :=
  ops.foldl (fun s op => op.run s) s

end Chain
end HiveChain
