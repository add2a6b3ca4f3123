import Mathlib.Data.Fintype.Fin
import HiveChain.Chain.EscrowProtocol

/-!
# HiveChain.Chain.EscrowRuns

The escrow evaluators refine the protocol: every escrow operation that returns, and every run of
operations, is a run of `EscrowMove`s, so the invariant and the ledger of
`HiveChain.Chain.EscrowProtocol` hold of every state the operations reach.
-/

namespace HiveChain
namespace Chain

open EState KeyedList

variable {Acc : Type} [DecidableEq Acc] {s s' : EscrowState Acc}

/-! ## Each evaluator is a move -/

theorem updateKey_eq_setEscrow (hnd : (s.escrows.map Escrow.key).Nodup) {e : Escrow Acc}
    (he : e ∈ s.escrows) {k : Acc × Nat} (hk : e.key = k) (f : Escrow Acc → Escrow Acc)
    (hf : (f e).key = e.key) :
    updateKey Escrow.key s.escrows k f = (s.setEscrow (f e)).escrows := by
  subst hk
  simp only [EscrowState.setEscrow, hf]
  exact updateKey_congr Escrow.key hnd he rfl f (fun _ => f e) rfl

theorem eq_of_mem_setEscrow {e' c : Escrow Acc} (hc : c ∈ (s.setEscrow e').escrows)
    (hk : c.key = e'.key) : c = e' := by
  obtain ⟨x, -, -, rfl⟩ := mem_updateKey_of_key Escrow.key hc hk
  rfl

theorem escrowTransfer_move {fromAcc toAcc agent : Acc} {escrowId : Nat}
    {hbdAmount hiveAmount fee : Asset} {ratificationDeadline escrowExpiration : Nat} {u : Unit}
    (hfee : 0 ≤ fee.amount) (hhbd : 0 ≤ hbdAmount.amount) (hhive : 0 ≤ hiveAmount.amount)
    (hpos : 0 < hbdAmount.amount ∨ 0 < hiveAmount.amount) (hthird : fromAcc ≠ agent ∧ toAcc ≠ agent)
    (h : (escrowTransfer fromAcc toAcc agent escrowId hbdAmount hiveAmount fee ratificationDeadline
      escrowExpiration).run s = .ok u s') :
    EscrowMove s s' := by
  obtain ⟨-, -, hfresh, rfl⟩ := escrowTransfer_ok h
  show EscrowMove s (created s ⟨escrowId, fromAcc, toAcc, agent, ratificationDeadline,
    escrowExpiration, hbdAmount.amount, hiveAmount.amount, fee, false, false, false⟩)
  exact .create hfresh
    ⟨hhive, hhbd, hpos.symm, hfee, (fun h => by cases h), hthird, (fun h => by cases h)⟩ rfl rfl

theorem escrowApprove_move {fromAcc toAcc agent who : Acc} {escrowId : Nat} {approve : Bool}
    {u : Unit} (hnd : (s.escrows.map Escrow.key).Nodup) (hwho : who = toAcc ∨ who = agent)
    (h : (escrowApprove fromAcc toAcc agent who escrowId approve).run s = .ok u s') :
    EscrowMove s s' := by
  obtain ⟨e, he, hk, rfl, rfl, -, hto, hagent, hrest⟩ := escrowApprove_ok hnd h
  have hpending : e.isApproved = false := by
    rcases hwho with hw | hw
    · simp [Escrow.isApproved, hto hw]
    · simp [Escrow.isApproved, hagent hw]
  cases approve
  · rw [hrest]
    exact .refund he hpending
  · obtain ⟨e₁, he₁, hk₁, rfl⟩ := payFeeIfApproved_ok hrest
    have he₁eq : e₁ = e.approveBy who := eq_of_mem_setEscrow he₁ (hk₁.trans hk.symm)
    subst he₁eq
    split
    · -- the second approval: the agent is paid the fee
      rename_i happ
      have hset := updateKey_updateKey Escrow.key s.escrows e.key Escrow.feePaid
        (f := fun _ => e.approveBy who) fun _ _ => rfl
      rw [← hk]
      show EscrowMove s { s.setEscrow (e.approveBy who) with
        chain := creditBalance s.chain e.agent e.pendingFee
        escrows := updateKey Escrow.key (s.setEscrow (e.approveBy who)).escrows e.key Escrow.feePaid }
      simp only [EscrowState.setEscrow, Escrow.key_approveBy, hset]
      exact .ratify who he hpending happ
    · rename_i hnot
      exact .approve who he hwho (⟨hto, hagent⟩) (Bool.eq_false_iff.mpr hnot)

theorem escrowDispute_move {fromAcc toAcc agent : Acc} {escrowId : Nat} {u : Unit}
    (hnd : (s.escrows.map Escrow.key).Nodup)
    (h : (escrowDispute fromAcc toAcc agent escrowId).run s = .ok u s') : EscrowMove s s' := by
  obtain ⟨e, he, hk, -, -, hexp, happ, hund, rfl⟩ := escrowDispute_ok h
  rw [updateKey_eq_setEscrow hnd he hk _ rfl]
  exact .dispute he happ hund hexp

theorem escrowRelease_move {fromAcc toAcc agent who receiver : Acc} {escrowId : Nat}
    {hbdAmount hiveAmount : Asset} {u : Unit} (hnd : (s.escrows.map Escrow.key).Nodup)
    (hhbd : 0 ≤ hbdAmount.amount) (hhive : 0 ≤ hiveAmount.amount)
    (hbdSym : hbdAmount.symbol = .hbd) (hiveSym : hiveAmount.symbol = .hive)
    (h : (escrowRelease fromAcc toAcc agent who receiver escrowId hbdAmount hiveAmount).run s =
      .ok u s') : EscrowMove s s' := by
  obtain ⟨e, he, hk, hhive', hhbd', -, -, happ, hmay, hrest⟩ := escrowRelease_ok h
  obtain ⟨hiveAmt, hiveS⟩ := hiveAmount
  obtain ⟨hbdAmt, hbdS⟩ := hbdAmount
  subst hiveSym hbdSym
  rw [updateKey_eq_setEscrow hnd he hk (fun e => e.withdraw hiveAmt hbdAmt) rfl] at hrest
  obtain ⟨e₁, he₁, hk₁, rfl⟩ := removeIfEmpty_ok hrest
  have he₁eq : e₁ = e.withdraw hiveAmt hbdAmt := eq_of_mem_setEscrow he₁ (hk₁.trans hk.symm)
  subst he₁eq
  have hmove := EscrowMove.release who receiver hiveAmt hbdAmt he happ hmay ⟨hhive, hhive'⟩
    ⟨hhbd, hhbd'⟩
  unfold released at hmove
  split at hmove
  · rename_i hempty
    rw [if_pos hempty]
    have hdrop : removeEscrows (s.setEscrow (e.withdraw hiveAmt hbdAmt)).escrows (fromAcc, escrowId) =
        removeEscrows s.escrows e.key := by
      rw [← hk]
      exact filter_updateKey Escrow.key s.escrows e.key fun _ _ => rfl
    have hfrom : e.fromAcc = fromAcc := congrArg Prod.fst hk
    simpa only [hdrop, EscrowState.dropEscrow, hk, hfrom] using hmove
  · rename_i hempty
    rw [if_neg hempty]
    exact hmove

theorem expireEscrowRatification_moves {u : Unit} (hnd : (s.escrows.map Escrow.key).Nodup)
    (h : expireEscrowRatification.run s = .ok u s') : Relation.ReflTransGen EscrowMove s s' := by
  rw [expireEscrowRatification_run] at h
  -- the invariant of the loop: moves so far, and every escrow not yet refunded still there
  have hloop := forM_run_ok_inv refundEscrow
    (fun pre t => Relation.ReflTransGen EscrowMove s t ∧
      ∀ e ∈ s.escrows, e.key ∉ pre.map Escrow.key → e ∈ t.escrows)
    (expiredEscrows s) ?step ⟨.refl, fun e he _ => he⟩ h
  · exact hloop.1
  case step =>
    rintro pre x post t t' hl ⟨hrun, hkeep⟩ hx
    have hxmem : x ∈ expiredEscrows s := by
      rw [hl]
      exact List.mem_append_right pre List.mem_cons_self
    obtain ⟨hxs, hpending, -⟩ := mem_expiredEscrows.mp hxmem
    have hxpre : x.key ∉ pre.map Escrow.key := key_not_mem_prefix _ (nodup_expiredEscrows hnd) hl
    rw [refundEscrow_ok hx]
    refine ⟨hrun.tail (.refund (hkeep x hxs hxpre) hpending), fun e he hk => ?_⟩
    simp only [List.map_append, List.map_cons, List.map_nil, List.mem_append, List.mem_singleton,
      not_or] at hk
    exact List.mem_filter.mpr ⟨hkeep e he hk.1, by simpa using hk.2⟩

theorem EscrowOp.apply_moves {op : EscrowOp Acc} {u : Unit}
    (hnd : (s.escrows.map Escrow.key).Nodup) (h : op.apply.run s = .ok u s') :
    Relation.ReflTransGen EscrowMove s s' := by
  cases op with
  | escrowTransfer fromAcc toAcc agent escrowId hbdAmount hiveAmount fee ratificationDeadline
      escrowExpiration =>
    simp only [EscrowOp.apply] at h
    obtain ⟨hfee, h₁⟩ := run_throw_if_eq_ok h
    obtain ⟨hhbd, h₂⟩ := run_throw_if_eq_ok h₁
    obtain ⟨hhive, h₃⟩ := run_throw_if_eq_ok h₂
    obtain ⟨hpos, h₄⟩ := run_throw_if_eq_ok h₃
    obtain ⟨hthird, h₅⟩ := run_throw_if_eq_ok h₄
    obtain ⟨-, h₆⟩ := run_throw_if_eq_ok h₅
    obtain ⟨-, h₇⟩ := run_throw_if_eq_ok h₆
    obtain ⟨-, h₈⟩ := run_throw_if_eq_ok h₇
    exact .single (escrowTransfer_move (by omega) (by omega) (by omega) (not_not.mp hpos)
      (not_not.mp hthird) h₈)
  | escrowApprove fromAcc toAcc agent who escrowId approve =>
    simp only [EscrowOp.apply] at h
    obtain ⟨hwho, h₁⟩ := run_throw_if_eq_ok h
    exact .single (escrowApprove_move hnd (not_not.mp hwho) h₁)
  | escrowDispute fromAcc toAcc agent who escrowId =>
    simp only [EscrowOp.apply] at h
    obtain ⟨-, h₁⟩ := run_throw_if_eq_ok h
    exact .single (escrowDispute_move hnd h₁)
  | escrowRelease fromAcc toAcc agent who receiver escrowId hbdAmount hiveAmount =>
    simp only [EscrowOp.apply] at h
    obtain ⟨-, h₁⟩ := run_throw_if_eq_ok h
    obtain ⟨-, h₂⟩ := run_throw_if_eq_ok h₁
    obtain ⟨hhbd, h₃⟩ := run_throw_if_eq_ok h₂
    obtain ⟨hhive, h₄⟩ := run_throw_if_eq_ok h₃
    obtain ⟨-, h₅⟩ := run_throw_if_eq_ok h₄
    obtain ⟨hbdSym, h₆⟩ := run_throw_if_eq_ok h₅
    obtain ⟨hiveSym, h₇⟩ := run_throw_if_eq_ok h₆
    exact .single (escrowRelease_move hnd (by omega) (by omega) (not_not.mp hbdSym)
      (not_not.mp hiveSym) h₇)
  | expireEscrowRatification => exact expireEscrowRatification_moves hnd h

theorem EscrowOp.run_moves (op : EscrowOp Acc) (hnd : (s.escrows.map Escrow.key).Nodup) :
    Relation.ReflTransGen EscrowMove s (op.run s) := by
  unfold EscrowOp.run
  split
  · rename_i h
    exact EscrowOp.apply_moves hnd h
  · exact .refl

theorem runEscrowOps_moves (ops : List (EscrowOp Acc)) :
    ∀ {s : EscrowState Acc}, EscrowInv s → Relation.ReflTransGen EscrowMove s (runEscrowOps ops s) := by
  induction ops with
  | nil => exact fun _ => .refl
  | cons op ops ih =>
    intro s hs
    have hfirst := op.run_moves hs.nodup
    exact hfirst.trans (ih (hs.of_moves hfirst))

theorem EscrowOp.run_hardfork (op : EscrowOp Acc) (hnd : (s.escrows.map Escrow.key).Nodup) :
    (op.run s).chain.hardfork = s.chain.hardfork := by
  have hmoves := op.run_moves hnd
  generalize op.run s = s' at hmoves ⊢
  induction hmoves with
  | refl => rfl
  | tail _ hm ih => exact hm.hardfork_eq.trans ih

/-! ## The escrow state machine -/

section StateMachine

variable [Fintype Acc]

/-- Every run of escrow operations is a run of the escrow protocol: it keeps the invariant and the
ledger, and from `HIVE_HARDFORK_1_25` the HIVE and HBD held. -/
theorem escrow_state_machine (ops : List (EscrowOp Acc)) (hs : EscrowInv s) :
    Relation.ReflTransGen EscrowMove s (runEscrowOps ops s) ∧ EscrowInv (runEscrowOps ops s) ∧
      (∀ sym, escrowLedger (runEscrowOps ops s) sym = escrowLedger s sym) ∧
      (25 ≤ s.chain.hardfork →
        ∀ sym, escrowHoldings (runEscrowOps ops s) sym = escrowHoldings s sym) := by
  have hmoves := runEscrowOps_moves ops hs
  exact ⟨hmoves, hs.of_moves hmoves, escrowLedger_of_moves hmoves hs,
    fun hf => escrowHoldings_of_moves hmoves hs hf⟩

end StateMachine

def escrowSample : EscrowState (Fin 3) where
  chain :=
    { hardfork := 25
      headBlockTime := 2592001
      headBlockIdWord := 0
      hbdInterestRate := 1000
      currentHbdSupply := 1000000
      balance := fun a => if a = 0 then 1000000 else 0
      hbdBalance := fun a => if a = 0 then 1000000 else 0
      hbdSeconds := fun _ => 0
      hbdSecondsLastUpdate := fun _ => 0
      hbdLastInterestPayment := fun _ => 0
      orders := []
      nextId := 0 }
  escrows := []
  pendingEscrowTransfers := fun _ => 0

def escrowSampleOps : List (EscrowOp (Fin 3)) :=
  [.escrowTransfer 0 1 2 0 ⟨10, .hbd⟩ ⟨0, .hive⟩ ⟨1, .hive⟩ 2592101 2592201,
    .escrowApprove 0 1 2 1 0 true,
    .escrowApprove 0 1 2 2 0 true,
    .escrowRelease 0 1 2 0 1 0 ⟨10, .hbd⟩ ⟨0, .hive⟩]

theorem escrowSample_inv : EscrowInv escrowSample :=
  ⟨List.nodup_nil, fun _ h => absurd h List.not_mem_nil, fun _ => rfl⟩

theorem escrow_state_machine_sample :
    EscrowInv escrowSample ∧
      ∀ sym, escrowHoldings (runEscrowOps escrowSampleOps escrowSample) sym =
        escrowHoldings escrowSample sym :=
  ⟨escrowSample_inv, (escrow_state_machine escrowSampleOps escrowSample_inv).2.2.2 (by decide)⟩

def escrowInterestSample : EscrowState (Fin 3) :=
  { escrowSample with chain := { escrowSample.chain with hardfork := 24 } }

/-- Before `HIVE_HARDFORK_1_25` putting HBD in escrow pays `from` the interest on its liquid HBD:
the HBD held in balances and escrows grows from 1000 to 1008.219. -/
theorem escrow_transfer_mints_hbd_interest :
    escrowHoldings escrowInterestSample .hbd = 1000000 ∧
      escrowHoldings (runEscrowOps [.escrowTransfer 0 1 2 0 ⟨10, .hbd⟩ ⟨0, .hive⟩ ⟨1, .hive⟩
        2592101 2592201] escrowInterestSample) .hbd = 1008219 :=
  ⟨by decide +kernel, by decide +kernel⟩

end Chain
end HiveChain
