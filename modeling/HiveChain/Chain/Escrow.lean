import HiveChain.Chain.Market

/-!
# HiveChain.Chain.Escrow

Escrow transfers (`escrow_transfer`, `escrow_approve`, `escrow_dispute` and `escrow_release`
evaluators, with their `validate`, and `database::expire_escrow_ratification`).

* `escrow_object` keeps its `from` and `to` as `fromAcc` and `toAcc`; its key is `(from, escrow_id)`.
* The escrows live in a list in id order, next to the balances of the market model, which
  `adjust_balance` changes as it does there (with the HBD interest before `HIVE_HARDFORK_1_25`).
* `escrow` in the evaluators is a reference into the index: what it reads after a `modify` is the
  modified object, so the model looks it up again.
* A constant of the source keeps its macro's name, in camel case (`HIVE_100_PERCENT` is
  `hive100Percent`).
-/

namespace HiveChain
namespace Chain

open EState

/-- `escrow_object`. -/
structure Escrow (Acc : Type) where
  escrowId : Nat
  fromAcc : Acc
  toAcc : Acc
  agent : Acc
  ratificationDeadline : Nat
  escrowExpiration : Nat
  hbdBalance : Int
  hiveBalance : Int
  pendingFee : Asset
  toApproved : Bool
  agentApproved : Bool
  disputed : Bool

namespace Escrow

variable {Acc : Type}

/-- `is_approved`. -/
def isApproved (e : Escrow Acc) : Bool := e.toApproved && e.agentApproved

/-- The `by_from_id` key. -/
def key (e : Escrow Acc) : Acc × Nat := (e.fromAcc, e.escrowId)

end Escrow

def hiveMaxPendingTransfers : Nat := 255

/-- The balances of the market model with the escrow index and the `pending_escrow_transfers`
counter of the accounts. -/
structure EscrowState (Acc : Type) where
  chain : MarketState Acc
  escrows : List (Escrow Acc)
  pendingEscrowTransfers : Acc → Nat

abbrev EscrowM (Acc : Type) := EStateM String (EscrowState Acc)

variable {Acc : Type} [DecidableEq Acc]

/-- A function of the balances run on the escrow state. -/
def onChain {α : Type} (m : MarketM Acc α) : EscrowM Acc α :=
  focus EscrowState.chain (fun s c => { s with chain := c }) m

/-- `get_escrow( from, escrow_id )`. -/
def getEscrow (fromAcc : Acc) (escrowId : Nat) : EscrowM Acc (Escrow Acc) := do
  let s ← get
  match s.escrows.find? (fun e => e.key = (fromAcc, escrowId)) with
  | some e => pure e
  | none => throw "unknown key: ${key} of type: ${kt} at multiindex lookup: ${multiindex}"

def modifyEscrow (fromAcc : Acc) (escrowId : Nat) (f : Escrow Acc → Escrow Acc) :
    EscrowM Acc Unit :=
  modify fun s => { s with escrows := s.escrows.map fun e =>
    if e.key = (fromAcc, escrowId) then f e else e }

def removeEscrow (fromAcc : Acc) (escrowId : Nat) : EscrowM Acc Unit :=
  modify fun s => { s with escrows := s.escrows.filter fun e => e.key ≠ (fromAcc, escrowId) }

/-- `pending_escrow_transfers` of an account moved by one. -/
def adjustPendingEscrowTransfers (a : Acc) (up : Bool) : EscrowM Acc Unit :=
  modify fun s =>
    let n := if up then s.pendingEscrowTransfers a + 1 else s.pendingEscrowTransfers a - 1
    { s with pendingEscrowTransfers := Function.update s.pendingEscrowTransfers a n }

/-- What an escrow still holds goes back to `from`, and the escrow is removed: the rejection in
`escrow_approve` and the body of `expire_escrow_ratification`. -/
def refundEscrow (e : Escrow Acc) : EscrowM Acc Unit := do
  onChain (adjustBalance e.fromAcc ⟨e.hiveBalance, .hive⟩)
  onChain (adjustBalance e.fromAcc ⟨e.hbdBalance, .hbd⟩)
  onChain (adjustBalance e.fromAcc e.pendingFee)
  adjustPendingEscrowTransfers e.fromAcc false
  removeEscrow e.fromAcc e.escrowId

/-- `escrow_transfer_evaluator`. -/
def escrowTransfer (fromAcc toAcc agent : Acc) (escrowId : Nat) (hbdAmount hiveAmount fee : Asset)
    (ratificationDeadline escrowExpiration : Nat) : EscrowM Acc Unit := do
  let s ← get
  if ratificationDeadline ≤ s.chain.headBlockTime then
    throw "The escrow ratification deadline must be after head block time."
  if escrowExpiration ≤ s.chain.headBlockTime then
    throw "The escrow expiration must be after head block time."
  if hiveMaxPendingTransfers ≤ s.pendingEscrowTransfers fromAcc then
    throw "Account already has the maximum number of open escrow transfers."
  let hiveSpent := if fee.symbol = .hive then hiveAmount.amount + fee.amount else hiveAmount.amount
  let hbdSpent := if fee.symbol = .hive then hbdAmount.amount else hbdAmount.amount + fee.amount
  onChain (adjustBalance fromAcc ⟨-hiveSpent, .hive⟩)
  onChain (adjustBalance fromAcc ⟨-hbdSpent, .hbd⟩)
  let s ← get
  if s.escrows.any fun e => e.key = (fromAcc, escrowId) then
    throw "could not insert object, most likely a uniqueness constraint was violated"
  modify fun s => { s with escrows := s.escrows ++ [⟨escrowId, fromAcc, toAcc, agent,
    ratificationDeadline, escrowExpiration, hbdAmount.amount, hiveAmount.amount, fee, false, false,
    false⟩] }
  adjustPendingEscrowTransfers fromAcc true

/-- The part of `escrow_approve` for one party, `to` or `agent`: it may not approve twice, and
its approval is recorded unless it rejects. -/
def approveAs (isParty alreadyApproved rejectEscrow : Bool) (msg : String) (fromAcc : Acc)
    (escrowId : Nat) (mark : Escrow Acc → Escrow Acc) : EscrowM Acc Unit :=
  if isParty then do
    if alreadyApproved then throw msg
    if !rejectEscrow then modifyEscrow fromAcc escrowId mark
  else pure ()

/-- The end of an approval in `escrow_approve`: once both have approved, the agent gets the
fee. -/
def payFeeIfApproved (fromAcc agent : Acc) (escrowId : Nat) : EscrowM Acc Unit := do
  let escrow ← getEscrow fromAcc escrowId
  if escrow.toApproved ∧ escrow.agentApproved then
    onChain (adjustBalance agent escrow.pendingFee)
    modifyEscrow fromAcc escrowId fun e => { e with pendingFee := { e.pendingFee with amount := 0 } }

/-- `escrow_approve_evaluator`. -/
def escrowApprove (fromAcc toAcc agent who : Acc) (escrowId : Nat) (approve : Bool) :
    EscrowM Acc Unit := do
  let escrow ← getEscrow fromAcc escrowId
  if escrow.toAcc ≠ toAcc then throw "Operation \x27to\x27 (${o}) does not match escrow \x27to\x27 (${e})."
  if escrow.agent ≠ agent then
    throw "Operation \x27agent\x27 (${a}) does not match escrow \x27agent\x27 (${e})."
  let s ← get
  if escrow.ratificationDeadline < s.chain.headBlockTime then
    throw "The escrow ratification deadline has passed. Escrow can no longer be ratified."
  let rejectEscrow := !approve
  approveAs (who = toAcc) escrow.toApproved rejectEscrow
    "Account \x27to\x27 (${t}) has already approved the escrow." fromAcc escrowId
    fun e => { e with toApproved := true }
  approveAs (who = agent) escrow.agentApproved rejectEscrow
    "Account \x27agent\x27 (${a}) has already approved the escrow." fromAcc escrowId
    fun e => { e with agentApproved := true }
  if rejectEscrow then refundEscrow escrow else payFeeIfApproved fromAcc agent escrowId

/-- `escrow_dispute_evaluator`. -/
def escrowDispute (fromAcc toAcc agent : Acc) (escrowId : Nat) : EscrowM Acc Unit := do
  let e ← getEscrow fromAcc escrowId
  let s ← get
  if e.escrowExpiration ≤ s.chain.headBlockTime then
    throw "Disputing the escrow must happen before expiration."
  if ¬(e.toApproved ∧ e.agentApproved) then
    throw "The escrow must be approved by all parties before a dispute can be raised."
  if e.disputed then throw "The escrow is already under dispute."
  if e.toAcc ≠ toAcc then throw "Operation \x27to\x27 (${o}) does not match escrow \x27to\x27 (${e})."
  if e.agent ≠ agent then
    throw "Operation \x27agent\x27 (${a}) does not match escrow \x27agent\x27 (${e})."
  modifyEscrow fromAcc escrowId fun e => { e with disputed := true }

/-- Who may release to whom in `escrow_release`: in a dispute the agent, to either party;
otherwise `from` or `to`, each only to the other before expiration. -/
def checkReleaser (e : Escrow Acc) (who receiver : Acc) (now : Nat) : EscrowM Acc Unit :=
  if e.disputed then do
    if who ≠ e.agent then
      throw "Only \x27agent\x27 (${a}) can release funds in a disputed escrow."
  else do
    if ¬(who = e.fromAcc ∨ who = e.toAcc) then
      throw "Only \x27from\x27 (${f}) and \x27to\x27 (${t}) can release funds from a non-disputed escrow"
    if now < e.escrowExpiration then
      if who = e.fromAcc then
        if receiver ≠ e.toAcc then
          throw "Only \x27from\x27 (${f}) can release funds to \x27to\x27 (${t})."
      else if who = e.toAcc then
        if receiver ≠ e.fromAcc then
          throw "Only \x27to\x27 (${t}) can release funds to \x27from\x27 (${t})."

/-- The end of `escrow_release`: an escrow left with nothing is removed. -/
def removeIfEmpty (fromAcc : Acc) (escrowId : Nat) : EscrowM Acc Unit := do
  let e ← getEscrow fromAcc escrowId
  if e.hiveBalance = 0 ∧ e.hbdBalance = 0 then
    adjustPendingEscrowTransfers fromAcc false
    removeEscrow fromAcc escrowId

/-- `escrow_release_evaluator`. -/
def escrowRelease (fromAcc toAcc agent who receiver : Acc) (escrowId : Nat)
    (hbdAmount hiveAmount : Asset) : EscrowM Acc Unit := do
  let e ← getEscrow fromAcc escrowId
  if e.hiveBalance < hiveAmount.amount then
    throw "Release amount exceeds escrow balance. Amount: ${a}, Balance: ${b}"
  if e.hbdBalance < hbdAmount.amount then
    throw "Release amount exceeds escrow balance. Amount: ${a}, Balance: ${b}"
  if e.toAcc ≠ toAcc then throw "Operation \x27to\x27 (${o}) does not match escrow \x27to\x27 (${e})."
  if e.agent ≠ agent then
    throw "Operation \x27agent\x27 (${a}) does not match escrow \x27agent\x27 (${e})."
  if ¬(receiver = e.fromAcc ∨ receiver = e.toAcc) then
    throw "Funds must be released to \x27from\x27 (${f}) or \x27to\x27 (${t})"
  if ¬(e.toApproved ∧ e.agentApproved) then
    throw "Funds cannot be released prior to escrow approval."
  let s ← get
  checkReleaser e who receiver s.chain.headBlockTime
  onChain (adjustBalance receiver hiveAmount)
  onChain (adjustBalance receiver hbdAmount)
  modifyEscrow fromAcc escrowId fun e => { e with
    hiveBalance := e.hiveBalance - hiveAmount.amount, hbdBalance := e.hbdBalance - hbdAmount.amount }
  removeIfEmpty fromAcc escrowId

/-- `expire_escrow_ratification`: every escrow not approved by its ratification deadline is
refunded, in `by_ratification_deadline` order. -/
def expireEscrowRatification : EscrowM Acc Unit := do
  let s ← get
  let expired := (s.escrows.filter fun e =>
    !e.isApproved && decide (e.ratificationDeadline ≤ s.chain.headBlockTime)).mergeSort
      fun e₁ e₂ => decide (e₁.ratificationDeadline ≤ e₂.ratificationDeadline)
  expired.forM refundEscrow

/-- The escrow operations, and the block step that expires unratified escrows. -/
inductive EscrowOp (Acc : Type) where
  | escrowTransfer (fromAcc toAcc agent : Acc) (escrowId : Nat) (hbdAmount hiveAmount fee : Asset)
      (ratificationDeadline escrowExpiration : Nat)
  | escrowApprove (fromAcc toAcc agent who : Acc) (escrowId : Nat) (approve : Bool)
  | escrowDispute (fromAcc toAcc agent who : Acc) (escrowId : Nat)
  | escrowRelease (fromAcc toAcc agent who receiver : Acc) (escrowId : Nat)
      (hbdAmount hiveAmount : Asset)
  | expireEscrowRatification

/-- `validate` of the operation, then its evaluator. -/
def EscrowOp.apply : EscrowOp Acc → EscrowM Acc Unit
  | .escrowTransfer fromAcc toAcc agent escrowId hbdAmount hiveAmount fee ratificationDeadline
      escrowExpiration => do
    if fee.amount < 0 then throw "fee cannot be negative"
    if hbdAmount.amount < 0 then throw "HBD amount cannot be negative"
    if hiveAmount.amount < 0 then throw "HIVE amount cannot be negative"
    if ¬(0 < hbdAmount.amount ∨ 0 < hiveAmount.amount) then
      throw "escrow must transfer a non-zero amount"
    if ¬(fromAcc ≠ agent ∧ toAcc ≠ agent) then throw "agent must be a third party"
    if hbdAmount.symbol ≠ .hbd then throw "HBD amount must contain HBD asset"
    if hiveAmount.symbol ≠ .hive then throw "HIVE amount must contain HIVE asset"
    if escrowExpiration ≤ ratificationDeadline then
      throw "ratification deadline must be before escrow expiration"
    Chain.escrowTransfer fromAcc toAcc agent escrowId hbdAmount hiveAmount fee ratificationDeadline
      escrowExpiration
  | .escrowApprove fromAcc toAcc agent who escrowId approve => do
    if ¬(who = toAcc ∨ who = agent) then throw "to or agent must approve escrow"
    Chain.escrowApprove fromAcc toAcc agent who escrowId approve
  | .escrowDispute fromAcc toAcc agent who escrowId => do
    if ¬(who = fromAcc ∨ who = toAcc) then throw "who must be from or to"
    Chain.escrowDispute fromAcc toAcc agent escrowId
  | .escrowRelease fromAcc toAcc agent who receiver escrowId hbdAmount hiveAmount => do
    if ¬(who = fromAcc ∨ who = toAcc ∨ who = agent) then throw "who must be from or to or agent"
    if ¬(receiver = fromAcc ∨ receiver = toAcc) then throw "receiver must be from or to"
    if hbdAmount.amount < 0 then throw "HBD amount cannot be negative"
    if hiveAmount.amount < 0 then throw "HIVE amount cannot be negative"
    if ¬(0 < hbdAmount.amount ∨ 0 < hiveAmount.amount) then
      throw "escrow must release a non-zero amount"
    if hbdAmount.symbol ≠ .hbd then throw "HBD amount must contain HBD asset"
    if hiveAmount.symbol ≠ .hive then throw "HIVE amount must contain HIVE asset"
    Chain.escrowRelease fromAcc toAcc agent who receiver escrowId hbdAmount hiveAmount
  | .expireEscrowRatification => Chain.expireEscrowRatification

/-- An operation in its own transaction: what it throws undoes it. -/
def EscrowOp.run (op : EscrowOp Acc) (s : EscrowState Acc) : EscrowState Acc :=
  match op.apply.run s with
  | .ok _ s' => s'
  | .error _ _ => s

/-- The operations applied one after the other. -/
def runEscrowOps (ops : List (EscrowOp Acc)) (s : EscrowState Acc) : EscrowState Acc :=
  ops.foldl (fun s op => op.run s) s

end Chain
end HiveChain
