import Mathlib.Algebra.BigOperators.Group.Finset.Basic
import Mathlib.Algebra.Order.Group.Int
import HiveChain.Lib.EState
import HiveChain.Lib.FinNumerals

/-!
# HiveChain.Chain.Witness

Governance votes (`libraries/chain/database.cpp`, `hive_evaluator.cpp`): every account may
name a proxy, receives by depth the votes of the accounts whose proxy chains reach it
(`proxied_vsf_votes`), and, without a proxy, votes for witnesses (`witness_vote_object`);
every witness keeps the total of its votes (`witness_object::votes`).

* `GovState` holds what the modelled functions read and write. The direct governance power
  stands for `vesting_shares - sum_delayed_votes`, which is all they read of those fields.
* The functions run in `EStateM String`, the message of a failed `FC_ASSERT` as the error.
  An operation that throws is undone by its transaction: `GovOp.run` keeps the state before it.
* `adjustProxiedWitnessVotes` (the overload with a `delta` array) and
  `adjustProxiedWitnessVotesShare` (the one with a single `share_type`) walk the proxy chain
  and stop at depth `HIVE_MAX_PROXY_RECURSION_DEPTH`.
-/

namespace HiveChain
namespace Chain

/-- `HIVE_MAX_PROXY_RECURSION_DEPTH`. -/
def maxProxyRecursionDepth : Nat := 4

/-- `HIVE_MAX_ACCOUNT_WITNESS_VOTES`. -/
def maxAccountWitnessVotes : Nat := 30

/-- The governance part of the chain state: account fields, the witness vote index, the witness
totals, and `total_vesting_shares`. `proxiedVsfVotes a i` is read at depths below
`maxProxyRecursionDepth`. -/
structure GovState (Acc Wit : Type) where
  hardfork : Nat
  proxy : Acc → Option Acc
  canVote : Acc → Bool
  directVotePower : Acc → Int
  proxiedVsfVotes : Acc → Nat → Int
  witnessesVotedFor : Acc → UInt16
  witnessVotes : List (Acc × Wit)
  votes : Wit → Int
  totalVestingShares : Int

variable {Acc Wit : Type} [DecidableEq Acc] [DecidableEq Wit]

namespace GovState

def hasHardfork (s : GovState Acc Wit) (n : Nat) : Bool := decide (n ≤ s.hardfork)

/-- `get_governance_vote_power`: the direct power and the votes proxied at every depth. -/
def governanceVotePower (s : GovState Acc Wit) (a : Acc) : Int :=
  s.directVotePower a + ∑ i ∈ Finset.range maxProxyRecursionDepth, s.proxiedVsfVotes a i

/-- The witnesses `a` votes for: its range of the index `by_account_witness`. -/
def witnessesOf (s : GovState Acc Wit) (a : Acc) : List Wit :=
  (s.witnessVotes.filter fun v => v.1 = a).map Prod.snd

/-- The `delta` array built from an account: its direct power, then its proxied votes. -/
def voteDelta (s : GovState Acc Wit) (a : Acc) : Nat → Int
  | 0 => s.directVotePower a
  | i + 1 => s.proxiedVsfVotes a i

end GovState

/-- `adjust_witness_vote`; the virtual schedule fields it also sets are not modelled. -/
def adjustWitnessVote (w : Wit) (delta : Int) : EStateM String (GovState Acc Wit) Unit := fun s =>
  let v := s.votes w + delta
  let s' := { s with votes := Function.update s.votes w v }
  if v ≤ s.totalVestingShares then .ok () s' else .error "" s'

/-- `adjust_witness_votes`: every witness the account votes for. -/
def adjustWitnessVotes (a : Acc) (delta : Int) : EStateM String (GovState Acc Wit) Unit := do
  let s ← get
  (s.witnessesOf a).forM fun w => adjustWitnessVote w delta

/-- The modifier of the proxy in `adjust_proxied_witness_votes`: `delta[i]` is added at depth
`i + depth`, for `i` from `HIVE_MAX_PROXY_RECURSION_DEPTH - depth - 1` down to `0`. -/
def addProxiedVotes (votes delta : Nat → Int) (depth : Nat) : Nat → Int :=
  (List.range (maxProxyRecursionDepth - depth)).reverse.foldl
    (fun v i => Function.update v (i + depth) (v (i + depth) + delta i)) votes

/-- `adjust_proxied_witness_votes` with a `delta` array: the proxy gets the array shifted by the
depth, and the account at the top of the chain adjusts its witnesses by the part of the array
that is still in reach. -/
def adjustProxiedWitnessVotes (a : Acc) (delta : Nat → Int) (depth : Nat) :
    EStateM String (GovState Acc Wit) Unit := fun s =>
  match s.proxy a with
  | some p =>
    if h : depth ≥ maxProxyRecursionDepth then .ok () s
    else
      let votes := addProxiedVotes (s.proxiedVsfVotes p) delta depth
      adjustProxiedWitnessVotes p delta (depth + 1)
        { s with proxiedVsfVotes := Function.update s.proxiedVsfVotes p votes }
  | none =>
    adjustWitnessVotes a (∑ i ∈ Finset.range (maxProxyRecursionDepth - depth + 1), delta i) s
termination_by maxProxyRecursionDepth - depth

/-- `adjust_proxied_witness_votes` with one `share_type`. -/
def adjustProxiedWitnessVotesShare (a : Acc) (delta : Int) (depth : Nat) :
    EStateM String (GovState Acc Wit) Unit := fun s =>
  match s.proxy a with
  | some p =>
    if h : depth ≥ maxProxyRecursionDepth then .ok () s
    else
      let votes := Function.update (s.proxiedVsfVotes p) depth (s.proxiedVsfVotes p depth + delta)
      adjustProxiedWitnessVotesShare p delta (depth + 1)
        { s with proxiedVsfVotes := Function.update s.proxiedVsfVotes p votes }
  | none => adjustWitnessVotes a delta s
termination_by maxProxyRecursionDepth - depth

/-- `nullify_proxied_witness_votes`: take the account and everything proxied to it out of its
proxy chain. -/
def nullifyProxiedWitnessVotes (a : Acc) : EStateM String (GovState Acc Wit) Unit := fun s =>
  adjustProxiedWitnessVotes a (fun i => -s.voteDelta a i) 0 s

/-- `clear_witness_votes`; the counter is reset from `HIVE_HARDFORK_0_6__104` on. -/
def clearWitnessVotes (a : Acc) : EStateM String (GovState Acc Wit) Unit := modify fun s =>
  let s' := { s with witnessVotes := s.witnessVotes.filter fun v => v.1 ≠ a }
  if s.hasHardfork 6 then { s' with witnessesVotedFor := Function.update s.witnessesVotedFor a 0 }
  else s'

/-- `retally_witness_votes`, run at `HIVE_HARDFORK_0_2` and `HIVE_HARDFORK_0_3`: every witness
total is set to `0`, then recounted from the votes of the accounts without a proxy. `accounts` is
the account index in its order. -/
def retallyWitnessVotes (accounts : List Acc) : EStateM String (GovState Acc Wit) Unit := do
  modify fun s => { s with votes := fun _ => 0 }
  accounts.forM fun a => do
    let s ← get
    unless (s.proxy a).isSome do
      (s.witnessesOf a).forM fun w => adjustWitnessVote w (s.governanceVotePower a)

/-- `retally_witness_vote_counts`, run at `HIVE_HARDFORK_0_6` and, with `force`, at
`HIVE_HARDFORK_0_8`: an account's `witnesses_voted_for` becomes the number of its votes, counted
in `uint16_t`, when `force` is set or the account has a proxy, and `0` otherwise. -/
def retallyWitnessVoteCounts (accounts : List Acc) (force : Bool) :
    EStateM String (GovState Acc Wit) Unit :=
  accounts.forM fun a => do
    let s ← get
    let witnessesVotedFor : UInt16 :=
      if force || (s.proxy a).isSome then UInt16.ofNat (s.witnessesOf a).length else 0
    if s.witnessesVotedFor a ≠ witnessesVotedFor then
      modify fun s => { s with
        witnessesVotedFor := Function.update s.witnessesVotedFor a witnessesVotedFor }

/-- The loop of `account_witness_proxy_evaluator` over the chain of the new proxy: every
account on it must be new to `chain`, and the chain may hold at most
`HIVE_MAX_PROXY_RECURSION_DEPTH` accounts. -/
def checkProxyChain (proxy : Acc → Option Acc) (chain : List Acc) (cprox : Acc) :
    Except String Unit :=
  match proxy cprox with
  | none => .ok ()
  | some next =>
    if next ∈ chain then .error "This proxy would create a proxy loop."
    else if chain.length + 1 ≤ maxProxyRecursionDepth then
      checkProxyChain proxy (next :: chain) next
    else .error "Proxy chain is too long."
termination_by maxProxyRecursionDepth + 1 - chain.length

/-- `account_witness_proxy_evaluator`; `newProxy = none` clears the proxy
(`HIVE_PROXY_TO_SELF_ACCOUNT`). -/
def accountWitnessProxy (account : Acc) (newProxy : Option Acc) :
    EStateM String (GovState Acc Wit) Unit := do
  let s ← get
  unless s.canVote account do
    throw "Account has declined the ability to vote and cannot proxy votes."
  nullifyProxiedWitnessVotes account
  match newProxy with
  | some p =>
    let s ← get
    if s.proxy account = some p then throw "Proxy must change."
    match checkProxyChain s.proxy [account, p] p with
    | .error e => throw e
    | .ok () => pure ()
    clearWitnessVotes account
    modify fun s => { s with proxy := Function.update s.proxy account (some p) }
    let s ← get
    adjustProxiedWitnessVotes account (s.voteDelta account) 0
  | none =>
    let s ← get
    if s.proxy account = none then throw "Proxy must change."
    modify fun s => { s with proxy := Function.update s.proxy account none }

/-- `account_witness_vote_evaluator`, with its hardfork branches. -/
def accountWitnessVote (account : Acc) (witness : Wit) (approve : Bool) :
    EStateM String (GovState Acc Wit) Unit := do
  let s ← get
  if (s.proxy account).isSome then
    throw "A proxy is currently set, please clear the proxy before voting for a witness."
  unless s.canVote account do throw "Account has declined its voting rights."
  let power := s.governanceVotePower account
  if (account, witness) ∉ s.witnessVotes then
    unless approve do throw "Vote doesn't exist, user must indicate a desire to approve witness."
    if s.hasHardfork 2 then
      unless (s.witnessesVotedFor account).toNat < maxAccountWitnessVotes do
        throw "Account has voted for too many witnesses."
      modify fun s => { s with witnessVotes := s.witnessVotes ++ [(account, witness)] }
      if s.hasHardfork 3 then adjustWitnessVote witness power
      else adjustProxiedWitnessVotesShare account power 0
    else
      modify fun s =>
        { s with witnessVotes := s.witnessVotes ++ [(account, witness)],
                 votes := Function.update s.votes witness (s.votes witness + power) }
    modify fun s =>
      { s with witnessesVotedFor :=
          Function.update s.witnessesVotedFor account (s.witnessesVotedFor account + 1) }
  else
    if approve then throw "Vote currently exists, user must indicate a desire to reject witness."
    if s.hasHardfork 2 then
      if s.hasHardfork 3 then adjustWitnessVote witness (-power)
      else adjustProxiedWitnessVotesShare account (-power) 0
    else
      modify fun s => { s with votes := Function.update s.votes witness (s.votes witness - power) }
    modify fun s =>
      { s with witnessesVotedFor :=
          Function.update s.witnessesVotedFor account (s.witnessesVotedFor account - 1) }
    modify fun s => { s with witnessVotes := s.witnessVotes.erase (account, witness) }

/-- A change of an account's direct governance power, as a vesting deposit, a power-down step or
a maturing delayed vote makes it, followed by `adjust_proxied_witness_votes( account, delta )`. -/
def changeDirectVotePower (account : Acc) (delta : Int) :
    EStateM String (GovState Acc Wit) Unit := do
  modify fun s =>
    { s with directVotePower :=
        Function.update s.directVotePower account (s.directVotePower account + delta) }
  adjustProxiedWitnessVotesShare account delta 0

/-- `process_decline_voting_rights`, for one due request. -/
def declineVotingRights (account : Acc) : EStateM String (GovState Acc Wit) Unit := do
  nullifyProxiedWitnessVotes account
  clearWitnessVotes account
  modify fun s =>
    { s with canVote := Function.update s.canVote account false,
             proxy := Function.update s.proxy account none }

/-- `remove_expired_governance_votes`, for one account whose governance vote expired. -/
def expireGovernanceVotes (account : Acc) : EStateM String (GovState Acc Wit) Unit := do
  nullifyProxiedWitnessVotes account
  clearWitnessVotes account
  modify fun s => { s with proxy := Function.update s.proxy account none }

/-- The operations and block steps that change governance votes. -/
inductive GovOp (Acc Wit : Type) where
  | accountWitnessProxy (account : Acc) (proxy : Option Acc)
  | accountWitnessVote (account : Acc) (witness : Wit) (approve : Bool)
  | changeDirectVotePower (account : Acc) (delta : Int)
  | declineVotingRights (account : Acc)
  | expireGovernanceVotes (account : Acc)

/-- `validate` of the operation, then its evaluator. -/
def GovOp.apply : GovOp Acc Wit → EStateM String (GovState Acc Wit) Unit
  | .accountWitnessProxy a p => do
    if p = some a then throw "Cannot proxy to self"
    Chain.accountWitnessProxy a p
  | .accountWitnessVote a w approve => Chain.accountWitnessVote a w approve
  | .changeDirectVotePower a delta => Chain.changeDirectVotePower a delta
  | .declineVotingRights a => Chain.declineVotingRights a
  | .expireGovernanceVotes a => Chain.expireGovernanceVotes a

/-- An operation in its own transaction: what it throws undoes it. -/
def GovOp.run (op : GovOp Acc Wit) (s : GovState Acc Wit) : GovState Acc Wit :=
  match op.apply.run s with
  | .ok _ s' => s'
  | .error _ _ => s

def runGovOps (ops : List (GovOp Acc Wit)) (s : GovState Acc Wit) : GovState Acc Wit :=
  ops.foldl (fun s op => op.run s) s

end Chain
end HiveChain
