import HiveChain.Chain.Market
import HiveChain.Lib.Bits

/-!
# HiveChain.Chain.Participation

Witness participation (`database::update_global_dynamic_data`,
`database::witness_participation_rate`, `fc::uint128_popcount`): a 128-bit window of recent
slots, one bit per slot, and a `uint8_t` counter of its set bits.

* Each block runs one round per slot since the last block: the first shifts in a set bit for the
  block itself, the others a clear bit for each missed slot. The counter loses the bit shifted out
  at the top and gains the bit shifted in.
* `uint128_popcount` counts the window with the SWAR loop of `_popcount_64` on each half.
* Machine words are `Nat` reduced by `% 2 ^ w` where the code's type wraps.
-/

namespace HiveChain
namespace Chain

/-- The masks of `_popcount_64`. -/
def popcountMasks : List Nat :=
  [0x5555555555555555, 0x3333333333333333, 0x0F0F0F0F0F0F0F0F, 0x00FF00FF00FF00FF,
    0x0000FFFF0000FFFF, 0x00000000FFFFFFFF]

/-- The loop of `_popcount_64`: `x = (x & m[i]) + ((x >> w) & m[i])`, then `w += w`. -/
def popcountLoop : Nat → List Nat → Nat → Nat
  | _, [], x => x
  | w, m :: ms, x => popcountLoop (w + w) ms (((x &&& m) + ((x >>> w) &&& m)) % 2 ^ 64)

/-- `_popcount_64`, returned as a `uint8_t`. -/
def popcount64 (x : Nat) : Nat := popcountLoop 1 popcountMasks x % 2 ^ 8

/-- `uint128_low_bits`. -/
def uint128LowBits (u : Nat) : Nat := u % 2 ^ 64

/-- `uint128_high_bits`. -/
def uint128HighBits (u : Nat) : Nat := u / 2 ^ 64 % 2 ^ 64

/-- `uint128_popcount`: the counts of the two halves, added as a `uint8_t`. -/
def uint128Popcount (u : Nat) : Nat :=
  (popcount64 (uint128LowBits u) + popcount64 (uint128HighBits u)) % 2 ^ 8

/-- The two fields of `dynamic_global_property_object` the participation rounds update. -/
structure ParticipationState where
  recentSlotsFilled : Nat
  participationCount : Nat
deriving DecidableEq, Repr

/-- Their initial values: `uint128_max_value()` and 128. -/
def ParticipationState.initial : ParticipationState := ⟨2 ^ 128 - 1, 128⟩

/-- One round of the loop of `update_global_dynamic_data`, for the round `i`. -/
def slotStep (s : ParticipationState) (i : Nat) : ParticipationState :=
  let shiftedOut := if uint128HighBits s.recentSlotsFilled &&& 0x8000000000000000 ≠ 0 then 1 else 0
  let participationCount := (s.participationCount + 2 ^ 8 - shiftedOut) % 2 ^ 8
  let recentSlotsFilled := ((s.recentSlotsFilled <<< 1) + (if i = 0 then 1 else 0)) % 2 ^ 128
  { recentSlotsFilled, participationCount := (participationCount + (if i = 0 then 1 else 0)) % 2 ^ 8 }

/-- The participation rounds of `update_global_dynamic_data` for a block at `slot`, the
`uint32_t` that `get_slot_at_time` gave: `missed_blocks = slot - 1`, then `missed_blocks + 1`
rounds. -/
def updateGlobalDynamicData (slot : Nat) (s : ParticipationState) : ParticipationState :=
  let missedBlocks := (slot + 2 ^ 32 - 1) % 2 ^ 32
  (List.range ((missedBlocks + 1) % 2 ^ 32)).foldl slotStep s

/-- A chain of blocks, each at its slot after the one before. -/
def runParticipation (slots : List Nat) (s : ParticipationState) : ParticipationState :=
  slots.foldl (fun s slot => updateGlobalDynamicData slot s) s

/-- `witness_participation_rate`: `HIVE_100_PERCENT` times the filled slots, over 128. -/
def witnessParticipationRate (s : ParticipationState) : Nat :=
  hive100Percent * uint128Popcount s.recentSlotsFilled / 128 % 2 ^ 32

end Chain
end HiveChain
