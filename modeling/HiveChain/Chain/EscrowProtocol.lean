import HiveChain.Chain.EscrowSpec

/-!
# HiveChain.Chain.EscrowProtocol

The escrow protocol: what one step may do to the escrows and the balances, what every reachable
state satisfies, and what the steps keep of the HIVE and HBD.

* `EscrowMove s s'` is one move of one escrow: `from` funds it; `to` or `agent` approves it, and
  the approval that completes it pays the agent the fee; an escrow not approved by both goes back
  to `from`; an approved one is disputed, or releases to whom `Escrow.MayRelease` allows and is
  removed once empty.
* `EscrowInv`: unique keys, every escrow `Escrow.Valid`, and `pending_escrow_transfers` counting
  the escrows of each account.
* Every move takes from the balances exactly what the escrows gain (`EscrowMove.ledgerStep`), so
  the ledger of the balances and the escrows is kept, and from `HIVE_HARDFORK_1_25` on the
  holdings too.
-/

namespace HiveChain
namespace Chain

open KeyedList

variable {Acc : Type} [DecidableEq Acc]

/-! ## Escrows -/

namespace Escrow

variable (e : Escrow Acc)

/-- `get_hive_balance` and `get_hbd_balance`. -/
def balanceIn : Symbol → Int
  | .hive => e.hiveBalance
  | .hbd => e.hbdBalance

/-- What an escrow holds of `sym`: its balance and its pending fee. -/
def held (sym : Symbol) : Int := e.balanceIn sym + e.pendingFee.amountIn sym

/-- What every escrow of a reachable state satisfies. -/
structure Valid : Prop where
  hive_nonneg : 0 ≤ e.hiveBalance
  hbd_nonneg : 0 ≤ e.hbdBalance
  holds : 0 < e.hiveBalance ∨ 0 < e.hbdBalance
  fee_nonneg : 0 ≤ e.pendingFee.amount
  fee_paid : e.isApproved = true → e.pendingFee.amount = 0
  third_party : e.fromAcc ≠ e.agent ∧ e.toAcc ≠ e.agent
  approved_of_disputed : e.disputed = true → e.isApproved = true

@[simp] theorem held_approveBy (who : Acc) (sym : Symbol) :
    (e.approveBy who).held sym = e.held sym :=
  rfl

omit [DecidableEq Acc] in
theorem held_feePaid (sym : Symbol) :
    e.feePaid.held sym = e.held sym - e.pendingFee.amountIn sym := by
  have hbal : e.feePaid.balanceIn sym = e.balanceIn sym := by cases sym <;> rfl
  have hfee : e.feePaid.pendingFee.amountIn sym = 0 := by
    unfold Asset.amountIn feePaid
    split_ifs <;> rfl
  unfold held
  rw [hbal, hfee]
  ring

omit [DecidableEq Acc] in
theorem held_withdraw (hive hbd : Int) (sym : Symbol) :
    (e.withdraw hive hbd).held sym =
      e.held sym - Asset.amountIn ⟨hive, .hive⟩ sym - Asset.amountIn ⟨hbd, .hbd⟩ sym := by
  have hbal : (e.withdraw hive hbd).balanceIn sym =
      e.balanceIn sym - Asset.amountIn ⟨hive, .hive⟩ sym - Asset.amountIn ⟨hbd, .hbd⟩ sym := by
    cases sym <;> simp [balanceIn, withdraw, Asset.amountIn]
  have hfee : (e.withdraw hive hbd).pendingFee = e.pendingFee := rfl
  unfold held
  rw [hbal, hfee]
  ring

end Escrow

/-! ## States after a move -/

/-- The state once `from` funded the new escrow `e`, its fee with it. -/
def created (s : EscrowState Acc) (e : Escrow Acc) : EscrowState Acc where
  chain := creditBalance (creditBalance s.chain e.fromAcc
      ⟨-(e.hiveBalance + e.pendingFee.amountIn .hive), .hive⟩)
    e.fromAcc ⟨-(e.hbdBalance + e.pendingFee.amountIn .hbd), .hbd⟩
  escrows := s.escrows ++ [e]
  pendingEscrowTransfers := bumpCounter s.pendingEscrowTransfers e.fromAcc true

/-- The state once the approval of `who` ratified `e`: the agent has the fee. -/
def ratified (s : EscrowState Acc) (e : Escrow Acc) (who : Acc) : EscrowState Acc :=
  { s.setEscrow (e.approveBy who).feePaid with
    chain := creditBalance s.chain e.agent e.pendingFee }

/-- The escrow `e` taken out of the index, and out of the count of its `from`. -/
def EscrowState.dropEscrow (s : EscrowState Acc) (e : Escrow Acc) : EscrowState Acc :=
  { s with
    escrows := removeEscrows s.escrows e.key
    pendingEscrowTransfers := bumpCounter s.pendingEscrowTransfers e.fromAcc false }

/-- The state once `receiver` got `hive` and `hbd` out of `e`, which is removed when left
empty. -/
def released (s : EscrowState Acc) (e : Escrow Acc) (receiver : Acc) (hive hbd : Int) :
    EscrowState Acc :=
  let chain := creditBalance (creditBalance s.chain receiver ⟨hive, .hive⟩) receiver ⟨hbd, .hbd⟩
  if (e.withdraw hive hbd).hiveBalance = 0 ∧ (e.withdraw hive hbd).hbdBalance = 0 then
    { s.dropEscrow e with chain }
  else { s.setEscrow (e.withdraw hive hbd) with chain }

/-! ## The moves -/

/-- One move of the escrow protocol. -/
inductive EscrowMove : EscrowState Acc → EscrowState Acc → Prop
  /-- `from` funds a new escrow, under a key no escrow has, that nobody has approved. -/
  | create {s : EscrowState Acc} {e : Escrow Acc} (hfresh : ∀ c ∈ s.escrows, c.key ≠ e.key)
      (hvalid : e.Valid) (hto : e.toApproved = false) (hagent : e.agentApproved = false) :
      EscrowMove s (created s e)
  /-- `to` or `agent` approves, once, an escrow that its approval leaves unratified. -/
  | approve {s : EscrowState Acc} {e : Escrow Acc} (who : Acc) (he : e ∈ s.escrows)
      (hwho : who = e.toAcc ∨ who = e.agent)
      (honce : (who = e.toAcc → e.toApproved = false) ∧ (who = e.agent → e.agentApproved = false))
      (hpending : (e.approveBy who).isApproved = false) :
      EscrowMove s (s.setEscrow (e.approveBy who))
  /-- The approval that ratifies an escrow pays the agent the fee. -/
  | ratify {s : EscrowState Acc} {e : Escrow Acc} (who : Acc) (he : e ∈ s.escrows)
      (hpending : e.isApproved = false) (happ : (e.approveBy who).isApproved = true) :
      EscrowMove s (ratified s e who)
  /-- An escrow not approved by both goes back to `from` with its fee: rejected, or past its
  ratification deadline. -/
  | refund {s : EscrowState Acc} {e : Escrow Acc} (he : e ∈ s.escrows)
      (hpending : e.isApproved = false) :
      EscrowMove s (refunded s e)
  /-- An approved escrow is disputed before its expiration. -/
  | dispute {s : EscrowState Acc} {e : Escrow Acc} (he : e ∈ s.escrows)
      (happ : e.isApproved = true) (hundisputed : e.disputed = false)
      (hexp : s.chain.headBlockTime < e.escrowExpiration) :
      EscrowMove s (s.setEscrow { e with disputed := true })
  /-- An approved escrow releases at most its balances, to whom `MayRelease` allows. -/
  | release {s : EscrowState Acc} {e : Escrow Acc} (who receiver : Acc) (hive hbd : Int)
      (he : e ∈ s.escrows) (happ : e.isApproved = true)
      (hmay : e.MayRelease who receiver s.chain.headBlockTime)
      (hhive : 0 ≤ hive ∧ hive ≤ e.hiveBalance) (hhbd : 0 ≤ hbd ∧ hbd ≤ e.hbdBalance) :
      EscrowMove s (released s e receiver hive hbd)

/-! ## The invariant -/

/-- What every reachable state satisfies: unique keys, valid escrows, and the counter of each
account's open escrows. -/
structure EscrowInv (s : EscrowState Acc) : Prop where
  nodup : (s.escrows.map Escrow.key).Nodup
  valid : ∀ e ∈ s.escrows, e.Valid
  counter : ∀ a, s.pendingEscrowTransfers a = s.escrows.countP fun e => e.fromAcc = a

section Invariant

variable {s : EscrowState Acc} {e e' : Escrow Acc}

theorem bumpCounter_apply (c : Acc → Nat) (a b : Acc) (up : Bool) :
    bumpCounter c a up b = if b = a then (if up then c a + 1 else c a - 1) else c b := by
  simp only [bumpCounter, Function.update_apply]

theorem EscrowInv.with_chain (hs : EscrowInv s) (c : MarketState Acc) :
    EscrowInv { s with chain := c } :=
  ⟨hs.nodup, hs.valid, hs.counter⟩

theorem EscrowInv.created (hs : EscrowInv s) (hfresh : ∀ c ∈ s.escrows, c.key ≠ e.key)
    (hv : e.Valid) : EscrowInv (created s e) where
  nodup := nodup_map_append_of_fresh _ hs.nodup hfresh
  valid c hc := by
    rcases List.mem_append.mp hc with hc | hc
    · exact hs.valid c hc
    · rw [List.mem_singleton.mp hc]
      exact hv
  counter a := by
    simp only [Chain.created, bumpCounter_apply, List.countP_append, hs.counter]
    by_cases ha : a = e.fromAcc
    · simp [ha]
    · simp [ha, Ne.symm ha]

theorem EscrowInv.setEscrow (hs : EscrowInv s) (he : e ∈ s.escrows) (hv : e'.Valid)
    (hk : e'.key = e.key) (hfrom : e'.fromAcc = e.fromAcc) : EscrowInv (s.setEscrow e') where
  nodup := by
    rw [EscrowState.setEscrow, map_key_updateKey_const]
    exact hs.nodup
  valid c hc := by
    rcases mem_of_mem_updateKey_const Escrow.key hc with rfl | hc
    · exact hv
    · exact hs.valid c hc
  counter a := by
    show s.pendingEscrowTransfers a = _
    rw [hs.counter a, EscrowState.setEscrow, hk]
    exact (countP_updateKey_of_mem Escrow.key hs.nodup he _ _ (by simp [hfrom])).symm

theorem EscrowInv.dropEscrow (hs : EscrowInv s) (he : e ∈ s.escrows) :
    EscrowInv (s.dropEscrow e) where
  nodup := hs.nodup.sublist (List.filter_sublist.map _)
  valid c hc := hs.valid c (List.mem_of_mem_filter hc)
  counter a := by
    have hcount := countP_filter_key_ne Escrow.key hs.nodup he fun c => decide (c.fromAcc = a)
    simp only [EscrowState.dropEscrow, bumpCounter_apply, hs.counter, removeEscrows]
    by_cases ha : a = e.fromAcc
    · subst ha
      simp only [decide_true, if_true] at hcount
      simp only [Bool.false_eq_true, ↓reduceIte]
      omega
    · simp only [Ne.symm ha, decide_false, Bool.false_eq_true, if_false, add_zero] at hcount
      simp only [ha, if_false]
      exact hcount.symm

theorem EscrowMove.inv {s s' : EscrowState Acc} (hm : EscrowMove s s') (hs : EscrowInv s) :
    EscrowInv s' := by
  cases hm with
  | create hfresh hvalid => exact hs.created hfresh hvalid
  | @approve e who he hwho honce hpending =>
    have hv := hs.valid e he
    refine hs.setEscrow he ⟨hv.1, hv.2, hv.3, hv.4, fun h => ?_, hv.6, fun hd => ?_⟩ rfl rfl
    · rw [hpending] at h
      cases h
    · have := hv.7 hd
      simp_all [Escrow.approveBy]
  | @ratify e who he hpending happ =>
    have hv := hs.valid e he
    have hv' : (e.approveBy who).feePaid.Valid :=
      ⟨hv.1, hv.2, hv.3, le_refl 0, fun _ => rfl, hv.6, fun _ => happ⟩
    exact (hs.setEscrow he hv' rfl rfl).with_chain _
  | refund he hpending => exact (hs.dropEscrow he).with_chain _
  | @dispute e he happ hundisputed hexp =>
    have hv := hs.valid e he
    exact hs.setEscrow he ⟨hv.1, hv.2, hv.3, hv.4, hv.5, hv.6, fun _ => happ⟩ rfl rfl
  | @release e who receiver hive hbd he happ hmay hhive hhbd =>
    have hv := hs.valid e he
    unfold released
    split
    · exact (hs.dropEscrow he).with_chain _
    · -- a part stays in the escrow, so one balance is still positive
      rename_i hempty
      simp only [Escrow.withdraw] at hempty
      have hv' : (e.withdraw hive hbd).Valid := by
        refine ⟨?_, ?_, ?_, hv.4, hv.5, hv.6, hv.7⟩
        · show 0 ≤ e.hiveBalance - hive
          omega
        · show 0 ≤ e.hbdBalance - hbd
          omega
        · show 0 < e.hiveBalance - hive ∨ 0 < e.hbdBalance - hbd
          omega
      exact (hs.setEscrow he hv' rfl rfl).with_chain _

theorem EscrowMove.hardfork_eq {s' : EscrowState Acc} (hm : EscrowMove s s') : s'.chain.hardfork = s.chain.hardfork := by
  cases hm with
  | create => simp [created]
  | approve => rfl
  | ratify => simp [ratified]
  | refund => simp [refunded]
  | dispute => rfl
  | release =>
    unfold released
    split_ifs <;> simp

theorem EscrowInv.of_moves {s s' : EscrowState Acc} (h : Relation.ReflTransGen EscrowMove s s')
    (hs : EscrowInv s) : EscrowInv s' := by
  induction h with
  | refl => exact hs
  | tail _ hm ih => exact hm.inv ih

end Invariant

/-! ## What the escrows hold -/

/-- What the escrows hold of `sym`. -/
def escrowsHeld (s : EscrowState Acc) (sym : Symbol) : Int := (s.escrows.map (·.held sym)).sum

section Held

variable {s : EscrowState Acc} {e e' : Escrow Acc}

theorem escrowsHeld_created (s : EscrowState Acc) (e : Escrow Acc) (sym : Symbol) :
    escrowsHeld (created s e) sym = escrowsHeld s sym + e.held sym := by
  simp [escrowsHeld, Chain.created]

theorem escrowsHeld_setEscrow (hnd : (s.escrows.map Escrow.key).Nodup) (he : e ∈ s.escrows)
    (hk : e'.key = e.key) (sym : Symbol) :
    escrowsHeld (s.setEscrow e') sym + e.held sym = escrowsHeld s sym + e'.held sym := by
  unfold escrowsHeld EscrowState.setEscrow
  rw [hk]
  exact sum_map_update_key Escrow.key (·.held sym) hnd he fun _ => e'

theorem escrowsHeld_dropEscrow (hnd : (s.escrows.map Escrow.key).Nodup) (he : e ∈ s.escrows)
    (sym : Symbol) : escrowsHeld (s.dropEscrow e) sym + e.held sym = escrowsHeld s sym :=
  sum_filter_key_ne Escrow.key (·.held sym) hnd he

end Held

section Ledger

variable [Fintype Acc] {s s' : EscrowState Acc}

/-- The ledger of the balances with what the escrows hold. -/
def escrowLedger (s : EscrowState Acc) (sym : Symbol) : Int :=
  ledger s.chain sym + escrowsHeld s sym

/-- The HIVE or HBD held in balances, orders and escrows. -/
def escrowHoldings (s : EscrowState Acc) (sym : Symbol) : Int :=
  holdings s.chain sym + escrowsHeld s sym

theorem ledgerStep_credit_pair (c : MarketState Acc) (a : Acc) (hive hbd : Int) :
    LedgerStep c (creditBalance (creditBalance c a ⟨hive, .hive⟩) a ⟨hbd, .hbd⟩)
      fun sym => Asset.amountIn ⟨hive, .hive⟩ sym + Asset.amountIn ⟨hbd, .hbd⟩ sym :=
  (ledgerStep_creditBalance c a _).trans (ledgerStep_creditBalance _ a _)

theorem EscrowMove.ledgerStep (hm : EscrowMove s s') (hs : EscrowInv s) :
    LedgerStep s.chain s'.chain fun sym => escrowsHeld s sym - escrowsHeld s' sym := by
  cases hm with
  | @create e hfresh hvalid =>
    refine (ledgerStep_credit_pair _ _ _ _).congr fun sym => ?_
    rw [escrowsHeld_created]
    cases sym <;> simp [Escrow.held, Escrow.balanceIn, Asset.amountIn]
  | @approve e who he hwho honce hpending =>
    have hheld := escrowsHeld_setEscrow hs.nodup he (Escrow.key_approveBy e who)
    refine (LedgerStep.refl s.chain).congr fun sym => ?_
    have := hheld sym
    rw [Escrow.held_approveBy] at this
    simp only [Pi.zero_apply]
    omega
  | @ratify e who he hpending happ =>
    have hheld := escrowsHeld_setEscrow hs.nodup he
      (show (e.approveBy who).feePaid.key = e.key from rfl)
    refine (ledgerStep_creditBalance s.chain e.agent e.pendingFee).congr fun sym => ?_
    have := hheld sym
    have hfee : (e.approveBy who).pendingFee = e.pendingFee := rfl
    rw [Escrow.held_feePaid, Escrow.held_approveBy, hfee] at this
    show e.pendingFee.amountIn sym = escrowsHeld s sym - escrowsHeld (s.setEscrow _) sym
    omega
  | @refund e he hpending =>
    have hheld := escrowsHeld_dropEscrow hs.nodup he
    refine (((ledgerStep_credit_pair s.chain e.fromAcc e.hiveBalance e.hbdBalance).trans
      (ledgerStep_creditBalance _ e.fromAcc e.pendingFee))).congr fun sym => ?_
    have := hheld sym
    show _ = escrowsHeld s sym - escrowsHeld (s.dropEscrow e) sym
    cases sym <;> simp [Escrow.held, Escrow.balanceIn, Asset.amountIn] at this ⊢ <;> omega
  | @dispute e he happ hundisputed hexp =>
    have hheld := escrowsHeld_setEscrow hs.nodup he
      (show ({ e with disputed := true } : Escrow Acc).key = e.key from rfl)
    refine (LedgerStep.refl s.chain).congr fun sym => ?_
    have := hheld sym
    simp only [Pi.zero_apply]
    have hsame : ({ e with disputed := true } : Escrow Acc).held sym = e.held sym := rfl
    omega
  | @release e who receiver hive hbd he happ hmay hhive hhbd =>
    have hv := hs.valid e he
    unfold released
    split
    · -- emptied: the escrow held what was released, its fee already paid
      rename_i hempty
      simp only [Escrow.withdraw] at hempty
      refine (ledgerStep_credit_pair s.chain receiver hive hbd).congr fun sym => ?_
      have hheld := escrowsHeld_dropEscrow hs.nodup he sym
      have hfee := hv.fee_paid happ
      show _ = escrowsHeld s sym - escrowsHeld (s.dropEscrow e) sym
      cases sym <;> simp [Escrow.held, Escrow.balanceIn, Asset.amountIn, hfee] at hheld ⊢ <;>
        omega
    · refine (ledgerStep_credit_pair s.chain receiver hive hbd).congr fun sym => ?_
      have hheld := escrowsHeld_setEscrow hs.nodup he
        (show (e.withdraw hive hbd).key = e.key from rfl) sym
      rw [Escrow.held_withdraw] at hheld
      show _ = escrowsHeld s sym - escrowsHeld (s.setEscrow _) sym
      omega

theorem ledgerStep_of_moves (h : Relation.ReflTransGen EscrowMove s s') (hs : EscrowInv s) :
    LedgerStep s.chain s'.chain fun sym => escrowsHeld s sym - escrowsHeld s' sym := by
  induction h with
  | refl => exact (LedgerStep.refl _).congr fun sym => by simp
  | tail hrun hm ih =>
    exact (ih.trans (hm.ledgerStep (hs.of_moves hrun))).congr fun sym => by
      simp only [Pi.add_apply]
      omega

theorem escrowLedger_of_moves (h : Relation.ReflTransGen EscrowMove s s') (hs : EscrowInv s)
    (sym : Symbol) : escrowLedger s' sym = escrowLedger s sym := by
  have hstep := (ledgerStep_of_moves h hs).ledger_eq sym
  unfold escrowLedger
  omega

theorem escrowHoldings_of_moves (h : Relation.ReflTransGen EscrowMove s s') (hs : EscrowInv s)
    (hf : 25 ≤ s.chain.hardfork) (sym : Symbol) : escrowHoldings s' sym = escrowHoldings s sym := by
  have hstep := ledgerStep_of_moves h hs
  have hledger := escrowLedger_of_moves h hs sym
  have hsupply := hstep.supply_eq hf
  unfold escrowLedger at hledger
  unfold escrowHoldings
  rw [ledger_eq_holdings, ledger_eq_holdings, hsupply] at hledger
  omega

end Ledger

end Chain
end HiveChain
