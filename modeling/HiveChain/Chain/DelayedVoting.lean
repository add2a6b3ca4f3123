import Mathlib.Data.List.Chain
import Mathlib.Algebra.BigOperators.Group.List.Basic
import HiveChain.Lib.EState

/-!
# HiveChain.Chain.DelayedVoting

Delayed votes (`util/delayed_voting_processor.hpp`, `util/delayed_voting.cpp`): an account's
vesting deposits wait `HIVE_DELAYED_VOTING_TOTAL_INTERVAL_SECONDS` before they count as votes. They
are kept in buckets `delayed_votes`, one per `HIVE_DELAYED_VOTING_INTERVAL_SECONDS`, with their sum
in `sum_delayed_votes`.

* `ushare_type` is a `safe< uint64_t >`: the values are natural numbers and an addition past
  `2 ^ 64` throws; the subtractions are all guarded by an `FC_ASSERT` or a comparison.
* `erase` takes `back()` in a loop with no bound of its own; reading `back()` of an empty vector is
  modelled as an error, which the invariant shows never happens.
* `delayed_voting::run` walks the accounts by their oldest bucket; for one account it takes off
  every bucket that has waited long enough, which is what `run` below does.
* The times are `time_point_sec` seconds, kept exact (they stay below `2 ^ 32` until 2106).
* A constant of the source keeps its macro's name, in camel case (`HIVE_100_PERCENT` is
  `hive100Percent`).
-/

namespace HiveChain
namespace Chain

def hiveDelayedVotingTotalIntervalSeconds : Nat := 60 * 60 * 24 * 30

def hiveDelayedVotingIntervalSeconds : Nat := 60 * 60 * 24 * 1

/-- `delayed_votes_data`. -/
structure DelayedVotesData where
  time : Nat
  val : Nat
deriving DecidableEq, Repr

/-- An account's `delayed_votes` and `sum_delayed_votes`. -/
structure DelayedVotes where
  items : List DelayedVotesData
  sum : Nat
deriving DecidableEq, Repr

/-- Addition in `ushare_type`. -/
def safeAdd (a b : Nat) : Except String Nat :=
  if a + b < 2 ^ 64 then .ok (a + b) else .error "Integer Overflow"

namespace DelayedVotingProcessor

/-- `delayed_voting_processor::add`: a new bucket once the last is an interval old, otherwise
the value joins the last bucket. -/
def add (d : DelayedVotes) (headTime val : Nat) : Except String DelayedVotes :=
  if val = 0 then .ok d
  else
    match d.items.getLast? with
    | none => do
      let sum ← safeAdd d.sum val
      pure ⟨d.items ++ [⟨headTime, val⟩], sum⟩
    | some back =>
      if headTime < back.time then
        .error "unexpected error: head time must be greater or equal to last delayed voting time"
      else do
        let sum ← safeAdd d.sum val
        if back.time + hiveDelayedVotingIntervalSeconds ≤ headTime then
          pure ⟨d.items ++ [⟨headTime, val⟩], sum⟩
        else
          let v ← safeAdd back.val val
          pure ⟨d.items.dropLast ++ [{ back with val := v }], sum⟩

/-- `delayed_voting_processor::erase_front`. -/
def eraseFront (d : DelayedVotes) : Except String DelayedVotes :=
  match d.items with
  | front :: rest =>
    if d.sum < front.val then
      .error "unexpected error: sum of delayed votings must be greater or equal to zero"
    else .ok ⟨rest, d.sum - front.val⟩
  | [] =>
    if d.sum = 0 then .ok d
    else .error "unexpected error: sum of delayed votings must be equal to zero"

/-- The loop of `erase`, over the buckets from the back (the vector reversed): whole buckets go
while `count` covers them, the next one is cut. `none` is `back()` of an empty vector. -/
def eraseBack : List DelayedVotesData → Nat → Option (List DelayedVotesData)
  | [], _ => none
  | obj :: rest, count =>
    if obj.val ≤ count then eraseBack rest (count - obj.val)
    else some ({ obj with val := obj.val - count } :: rest)

/-- `delayed_voting_processor::erase`. -/
def erase (d : DelayedVotes) (count : Nat) : Except String DelayedVotes :=
  if count = 0 then .ok d
  else if d.sum < count then
    .error "unexpected error: number votes to be erased must be greater or equal to sum of delayed votings"
  else if d.sum = count then .ok ⟨[], 0⟩
  else
    match eraseBack d.items.reverse count with
    | some items => .ok ⟨items.reverse, d.sum - count⟩
    | none => .error "back() of an empty vector"

end DelayedVotingProcessor

open DelayedVotingProcessor

/-- The rounds of `delayed_voting::run` on one account, at most `fuel`: `erase_front` while the
oldest bucket has waited `HIVE_DELAYED_VOTING_TOTAL_INTERVAL_SECONDS`. -/
def runLoop (headTime : Nat) : Nat → DelayedVotes → Except String DelayedVotes
  | 0, d => .ok d
  | fuel + 1, d =>
    match d.items with
    | front :: _ =>
      if front.time + hiveDelayedVotingTotalIntervalSeconds ≤ headTime then do
        runLoop headTime fuel (← eraseFront d)
      else .ok d
    | [] => .ok d

/-- `delayed_voting::run` on one account; each round takes a bucket off, so as many rounds as
buckets are enough. -/
def delayedVotingRun (headTime : Nat) (d : DelayedVotes) : Except String DelayedVotes :=
  runLoop headTime d.items.length d

/-- The calls made on one account's delayed votes. -/
inductive DelayedEvent where
  | add (headTime val : Nat)
  | erase (count : Nat)
  | eraseFront

def DelayedEvent.apply : DelayedEvent → DelayedVotes → Except String DelayedVotes
  | .add headTime val, d => DelayedVotingProcessor.add d headTime val
  | .erase count, d => DelayedVotingProcessor.erase d count
  | .eraseFront, d => DelayedVotingProcessor.eraseFront d

/-- A call in its transaction: what throws is undone. -/
def DelayedEvent.run (e : DelayedEvent) (d : DelayedVotes) : DelayedVotes :=
  match e.apply d with
  | .ok d' => d'
  | .error _ => d

def runDelayedEvents (es : List DelayedEvent) (d : DelayedVotes) : DelayedVotes :=
  es.foldl (fun d e => e.run d) d

/-- What the transactions of a block do to the account's votes: a deposit, or a withdrawal. -/
inductive VestingChange where
  | deposit (val : Nat)
  | withdraw (count : Nat)

/-- `delayed_voting::update_votes` for the account: a deposit is added at the head time; a
withdrawal erases what it can, at most `sum_delayed_votes`. -/
def VestingChange.run (headTime : Nat) : VestingChange → DelayedVotes → DelayedVotes
  | .deposit val, d => (DelayedEvent.add headTime val).run d
  | .withdraw count, d => (DelayedEvent.erase (min count d.sum)).run d

def runChanges (headTime : Nat) (cs : List VestingChange) (d : DelayedVotes) : DelayedVotes :=
  cs.foldl (fun d c => c.run headTime d) d

/-- A block: its transactions, then `delayed_voting::run` at its head time; a failed run fails
the block. -/
def runBlock (headTime : Nat) (cs : List VestingChange) (d : DelayedVotes) : DelayedVotes :=
  match delayedVotingRun headTime (runChanges headTime cs d) with
  | .ok d' => d'
  | .error _ => d

def runBlocks (blocks : List (Nat × List VestingChange)) (d : DelayedVotes) : DelayedVotes :=
  blocks.foldl (fun d b => runBlock b.1 b.2 d) d

end Chain
end HiveChain
