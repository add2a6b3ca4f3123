import HiveChain.Chain.SavingsSpec
import HiveChain.Chain.WithdrawRoutes
import HiveChain.Chain.RecurrentSpec
import HiveChain.Chain.EscrowRuns
import HiveChain.Chain.WitnessCounts

/-!
# HiveChain.Chain.Counters

The per-account counters of the objects an account owns, each against its index, over any run
of the chain: one state, with one set of balances and one hardfork, in which the operations and
block steps of savings, withdraw routes, recurrent transfers, escrows and witness votes
interleave, each in its own transaction.

* Each subsystem runs on its view of `ChainState` (`toSavings`, `toRoutes`, ...), written back
  by `withSavings`, `withRoutes`, ...
* No subsystem writes the index or counter of another, and no operation changes the hardfork,
  so the five invariants hold together over every interleaving (`runChainOps_inv`).
* The counters are `savings_withdraw_requests`, `withdraw_routes`, `open_recurrent_transfers`,
  `pending_escrow_transfers` and, from the forced recount of `HIVE_HARDFORK_0_8` on,
  `witnesses_voted_for` in its `uint16_t`.
-/

namespace HiveChain
namespace Chain

open EState

variable {Acc Wit : Type} [DecidableEq Acc] [DecidableEq Wit]

/-- What the operations that create and remove the counted objects read and write: the balances
and the hardfork, the treasury, the savings balances and withdrawals, the withdraw routes, the
recurrent transfers, the escrows and the governance votes, each with its counter. -/
structure ChainState (Acc Wit : Type) where
  chain : MarketState Acc
  treasury : Acc
  savingsBalance : Acc → Int
  savingsHbdBalance : Acc → Int
  savingsHbdSeconds : Acc → Nat
  savingsHbdSecondsLastUpdate : Acc → Nat
  savingsHbdLastInterestPayment : Acc → Nat
  withdraws : List (SavingsWithdraw Acc)
  savingsWithdrawRequests : Acc → Nat
  routes : List (WithdrawRoute Acc)
  withdrawRoutes : Acc → Nat
  transfers : List (RecurrentTransfer Acc)
  openRecurrentTransfers : Acc → Nat
  nextRecurrentTransferId : Nat
  escrows : List (Escrow Acc)
  pendingEscrowTransfers : Acc → Nat
  proxy : Acc → Option Acc
  canVote : Acc → Bool
  directVotePower : Acc → Int
  proxiedVsfVotes : Acc → Nat → Int
  witnessesVotedFor : Acc → UInt16
  witnessVotes : List (Acc × Wit)
  votes : Wit → Int
  totalVestingShares : Int

namespace ChainState

def toSavings (c : ChainState Acc Wit) : SavingsState Acc where
  chain := c.chain
  treasury := c.treasury
  savingsBalance := c.savingsBalance
  savingsHbdBalance := c.savingsHbdBalance
  savingsHbdSeconds := c.savingsHbdSeconds
  savingsHbdSecondsLastUpdate := c.savingsHbdSecondsLastUpdate
  savingsHbdLastInterestPayment := c.savingsHbdLastInterestPayment
  withdraws := c.withdraws
  savingsWithdrawRequests := c.savingsWithdrawRequests

def withSavings (c : ChainState Acc Wit) (s : SavingsState Acc) : ChainState Acc Wit :=
  { c with
    chain := s.chain
    treasury := s.treasury
    savingsBalance := s.savingsBalance
    savingsHbdBalance := s.savingsHbdBalance
    savingsHbdSeconds := s.savingsHbdSeconds
    savingsHbdSecondsLastUpdate := s.savingsHbdSecondsLastUpdate
    savingsHbdLastInterestPayment := s.savingsHbdLastInterestPayment
    withdraws := s.withdraws
    savingsWithdrawRequests := s.savingsWithdrawRequests }

def toRoutes (c : ChainState Acc Wit) : RoutesState Acc :=
  ⟨c.chain.hardfork, c.treasury, c.routes, c.withdrawRoutes⟩

def withRoutes (c : ChainState Acc Wit) (s : RoutesState Acc) : ChainState Acc Wit :=
  { c with
    chain := { c.chain with hardfork := s.hardfork }
    treasury := s.treasury
    routes := s.routes
    withdrawRoutes := s.withdrawRoutes }

def toRecurrent (c : ChainState Acc Wit) : RecurrentState Acc :=
  ⟨c.chain, c.transfers, c.openRecurrentTransfers, c.nextRecurrentTransferId⟩

def withRecurrent (c : ChainState Acc Wit) (s : RecurrentState Acc) : ChainState Acc Wit :=
  { c with
    chain := s.chain
    transfers := s.transfers
    openRecurrentTransfers := s.openRecurrentTransfers
    nextRecurrentTransferId := s.nextId }

def toEscrow (c : ChainState Acc Wit) : EscrowState Acc :=
  ⟨c.chain, c.escrows, c.pendingEscrowTransfers⟩

def withEscrow (c : ChainState Acc Wit) (s : EscrowState Acc) : ChainState Acc Wit :=
  { c with chain := s.chain, escrows := s.escrows, pendingEscrowTransfers := s.pendingEscrowTransfers }

def toGov (c : ChainState Acc Wit) : GovState Acc Wit :=
  ⟨c.chain.hardfork, c.proxy, c.canVote, c.directVotePower, c.proxiedVsfVotes, c.witnessesVotedFor,
    c.witnessVotes, c.votes, c.totalVestingShares⟩

def withGov (c : ChainState Acc Wit) (g : GovState Acc Wit) : ChainState Acc Wit :=
  { c with
    chain := { c.chain with hardfork := g.hardfork }
    proxy := g.proxy
    canVote := g.canVote
    directVotePower := g.directVotePower
    proxiedVsfVotes := g.proxiedVsfVotes
    witnessesVotedFor := g.witnessesVotedFor
    witnessVotes := g.witnessVotes
    votes := g.votes
    totalVestingShares := g.totalVestingShares }

end ChainState

/-- The operations and block steps of the five subsystems. -/
inductive ChainOp (Acc Wit : Type) where
  | savings (op : SavingsOp Acc)
  | setWithdrawVestingRoute (op : SetWithdrawVestingRouteOperation Acc)
  | recurrent (op : RecurrentOp Acc)
  | escrow (op : EscrowOp Acc)
  | gov (op : GovOp Acc Wit)

/-- An operation in its own transaction, on the part of the chain state its subsystem reads. -/
def ChainOp.run : ChainOp Acc Wit → ChainState Acc Wit → ChainState Acc Wit
  | .savings op, c => c.withSavings (op.run c.toSavings)
  | .setWithdrawVestingRoute op, c => c.withRoutes (op.run c.toRoutes)
  | .recurrent op, c => c.withRecurrent (op.run c.toRecurrent)
  | .escrow op, c => c.withEscrow (op.run c.toEscrow)
  | .gov op, c => c.withGov (op.run c.toGov)

/-- The operations applied one after the other. -/
def runChainOps (ops : List (ChainOp Acc Wit)) (c : ChainState Acc Wit) : ChainState Acc Wit :=
  ops.foldl (fun c op => op.run c) c

/-! ## The invariant of the chain -/

section Frame

theorem RoutesInv.of_routes {s s' : RoutesState Acc} (hs : RoutesInv s) (hr : s'.routes = s.routes)
    (hw : s'.withdrawRoutes = s.withdrawRoutes) : RoutesInv s' := by
  obtain ⟨hnd, hc, hle, hp⟩ := hs
  rw [← hr, ← hw] at *
  exact ⟨hnd, hc, hle, hp⟩

omit [DecidableEq Wit] in
theorem VoteCountInv.of_votes {g g' : GovState Acc Wit} (hg : VoteCountInv g)
    (hv : g'.witnessVotes = g.witnessVotes) (hw : g'.witnessesVotedFor = g.witnessesVotedFor) :
    VoteCountInv g' := by
  obtain ⟨hnd, hc⟩ := hg
  refine ⟨hv ▸ hnd, fun a => ?_⟩
  rw [hw, hc a, GovState.voteCount, GovState.voteCount, hv]

end Frame

/-- The invariants of the five subsystems, and a hardfork from `HIVE_HARDFORK_0_6` on, where
the governance operations keep `witnesses_voted_for`. -/
structure ChainInv (c : ChainState Acc Wit) : Prop where
  savings : SavingsInv c.toSavings
  routes : RoutesInv c.toRoutes
  recurrent : RecurrentInv c.toRecurrent
  escrow : EscrowInv c.toEscrow
  gov : VoteCountInv c.toGov
  hardfork : 6 ≤ c.chain.hardfork

variable {c : ChainState Acc Wit}

theorem ChainInv.run (h : ChainInv c) : ∀ op : ChainOp Acc Wit, ChainInv (op.run c)
  | .savings op =>
    ⟨op.run_inv h.savings, h.routes.of_routes rfl rfl, h.recurrent.of_index rfl,
      h.escrow.with_chain _, h.gov.of_votes rfl rfl,
      h.hardfork.trans_eq (SavingsOp.run_hardfork op c.toSavings).symm⟩
  | .setWithdrawVestingRoute op =>
    ⟨h.savings.of_index rfl, op.run_inv h.routes, h.recurrent.of_index rfl, h.escrow.with_chain _,
      h.gov.of_votes rfl rfl,
      h.hardfork.trans_eq (SetWithdrawVestingRouteOperation.run_hardfork op c.toRoutes).symm⟩
  | .recurrent op =>
    ⟨h.savings.of_index rfl, h.routes.of_routes rfl rfl, op.run_inv h.recurrent,
      h.escrow.with_chain _, h.gov.of_votes rfl rfl,
      h.hardfork.trans_eq (RecurrentOp.run_hardfork op c.toRecurrent).symm⟩
  | .escrow op =>
    ⟨h.savings.of_index rfl, h.routes.of_routes rfl rfl, h.recurrent.of_index rfl,
      h.escrow.of_moves (op.run_moves h.escrow.nodup), h.gov.of_votes rfl rfl,
      h.hardfork.trans_eq (EscrowOp.run_hardfork op h.escrow.nodup).symm⟩
  | .gov op =>
    have hg := op.run_counts h.gov h.hardfork
    ⟨h.savings.of_index rfl, h.routes.of_routes rfl rfl, h.recurrent.of_index rfl,
      h.escrow.with_chain _, hg.1, h.hardfork.trans_eq hg.2.symm⟩

theorem runChainOps_inv : ∀ (ops : List (ChainOp Acc Wit)) {c : ChainState Acc Wit}, ChainInv c →
    ChainInv (runChainOps ops c)
  | [], _, h => h
  | op :: ops, _, h => runChainOps_inv ops (h.run op)

/-- Every counter of the account `a` agrees with the objects of its index, and each recurrent
transfer of `a` finds `open_recurrent_transfers` positive when it is removed. -/
def CountersAgree (c : ChainState Acc Wit) (a : Acc) : Prop :=
  c.savingsWithdrawRequests a = c.withdraws.countP (fun w => w.fromAcc = a) ∧
    c.withdrawRoutes a = c.routes.countP (fun r => r.fromAccount = a) ∧
    c.openRecurrentTransfers a = c.transfers.countP (fun t => t.fromId = a) ∧
    c.pendingEscrowTransfers a = c.escrows.countP (fun e => e.fromAcc = a) ∧
    c.witnessesVotedFor a = UInt16.ofNat (c.witnessVotes.countP fun v => v.1 = a) ∧
    (∀ t ∈ c.transfers, t.fromId = a → 0 < c.openRecurrentTransfers a)

omit [DecidableEq Wit] in
theorem ChainInv.countersAgree (h : ChainInv c) (a : Acc) : CountersAgree c a := by
  refine ⟨h.savings.counts a, h.routes.counts a, h.recurrent.counts a, h.escrow.counter a,
    h.gov.counts a, ?_⟩
  rintro t ht rfl
  exact h.recurrent.open_pos ht

/-- The per-account counters agree with their indices over one interleaved run: from a chain
state whose savings, routes, recurrent transfers and escrows agree with their counters, after the
forced recount of `HIVE_HARDFORK_0_8`, every sequence of operations of the five subsystems keeps
every counter equal to the number of objects it counts. -/
theorem object_counters_agree {c : ChainState Acc Wit} {g₈ : GovState Acc Wit}
    (ops : List (ChainOp Acc Wit)) (accounts : List Acc)
    (hsv : SavingsInv c.toSavings) (hrs : RoutesInv c.toRoutes) (hrt : RecurrentInv c.toRecurrent)
    (hes : EscrowInv c.toEscrow) (hall : ∀ a, a ∈ accounts) (hnd : c.witnessVotes.Nodup)
    (hf : 8 ≤ c.chain.hardfork) (h₈ : (retallyWitnessVoteCounts accounts true).run c.toGov = .ok () g₈)
    (a : Acc) :
    CountersAgree (runChainOps ops (c.withGov g₈)) a := by
  obtain ⟨hg₈, hf₈⟩ := retallyWitnessVoteCounts_force hall hnd h₈
  have hstart : ChainInv (c.withGov g₈) :=
    ⟨hsv.of_index rfl, hrs.of_routes rfl rfl, hrt.of_index rfl, hes.with_chain _, hg₈,
      show 6 ≤ g₈.hardfork by rw [hf₈]; exact le_trans (by decide) hf⟩
  exact (runChainOps_inv ops hstart).countersAgree a

def countersChain : ChainState (Fin 3) (Fin 1) where
  chain := escrowSample.chain
  treasury := 2
  savingsBalance _ := 0
  savingsHbdBalance _ := 0
  savingsHbdSeconds _ := 0
  savingsHbdSecondsLastUpdate _ := 0
  savingsHbdLastInterestPayment _ := 0
  withdraws := []
  savingsWithdrawRequests _ := 0
  routes := []
  withdrawRoutes _ := 0
  transfers := []
  openRecurrentTransfers _ := 0
  nextRecurrentTransferId := 0
  escrows := escrowSample.escrows
  pendingEscrowTransfers := escrowSample.pendingEscrowTransfers
  proxy _ := none
  canVote _ := true
  directVotePower _ := 5
  proxiedVsfVotes _ _ := 0
  witnessesVotedFor _ := 0
  witnessVotes := [(0, 0)]
  votes _ := 5
  totalVestingShares := 100

theorem object_counters_agree_sample :
    CountersAgree
      (runChainOps
        ([.savings (.transferToSavings 0 1 ⟨1000, .hive⟩), .gov (.accountWitnessVote 1 0 true),
          .setWithdrawVestingRoute ⟨0, 1, 5000, false⟩,
          .recurrent (.recurrentTransfer 0 1 ⟨100, .hive⟩ 24 3 []),
          .savings (.transferFromSavings 1 0 7 ⟨400, .hive⟩), .gov (.accountWitnessProxy 0 (some 1)),
          .setWithdrawVestingRoute ⟨0, 2, 6000, true⟩, .savings .processSavingsWithdraws,
          .recurrent .processRecurrentTransfers] ++ escrowSampleOps.map .escrow)
        (countersChain.withGov
          (Result.state ((retallyWitnessVoteCounts [0, 1, 2] true).run countersChain.toGov)))) 0 := by
  have hsv : SavingsInv countersChain.toSavings := ⟨List.nodup_nil, fun _ => rfl⟩
  have hrs : RoutesInv countersChain.toRoutes :=
    ⟨List.nodup_nil, fun _ => rfl, fun _ => Nat.zero_le _, fun _ => Nat.zero_le _⟩
  have hrt : RecurrentInv countersChain.toRecurrent :=
    ⟨List.nodup_nil, fun _ h => absurd h List.not_mem_nil, List.nodup_nil, fun _ => rfl,
      fun _ => Nat.zero_le _, fun _ h => absurd h List.not_mem_nil⟩
  have h₈ : (retallyWitnessVoteCounts [0, 1, 2] true).run countersChain.toGov =
      .ok () (Result.state ((retallyWitnessVoteCounts [0, 1, 2] true).run countersChain.toGov)) := rfl
  exact object_counters_agree _ [0, 1, 2] hsv hrs hrt escrowSample_inv (by decide) (by decide)
    (by decide) h₈ 0

def countersGovHf3 : GovState (Fin 2) (Fin 1) where
  hardfork := 3
  proxy _ := none
  canVote _ := true
  directVotePower _ := 5
  proxiedVsfVotes _ _ := 0
  witnessesVotedFor a := if a = 0 then 1 else 0
  witnessVotes := [(0, 0)]
  votes _ := 5
  totalVestingShares := 100

/-- Before `HIVE_HARDFORK_0_6`, setting a proxy clears an account's witness votes but keeps its
`witnesses_voted_for`. -/
theorem witnesses_voted_for_kept_by_proxy_hf3 :
    VoteCountInv countersGovHf3 ∧
      (runGovOps [.accountWitnessProxy 0 (some 1)] countersGovHf3).witnessesVotedFor 0 = 1 ∧
      (runGovOps [.accountWitnessProxy 0 (some 1)] countersGovHf3).witnessVotes = [] :=
  ⟨⟨by decide, by decide⟩, by decide +kernel, by decide +kernel⟩

end Chain
end HiveChain
