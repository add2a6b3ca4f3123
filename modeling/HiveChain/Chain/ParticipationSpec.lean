import HiveChain.Chain.Participation

/-!
# HiveChain.Chain.ParticipationSpec

The participation counter is the number of set bits of the slot window, after any chain of blocks
with any numbers of missed slots, and `uint128_popcount` computes that number.

* `popcount64_eq` — the six SWAR rounds of `_popcount_64` count the 64 bits.
* `slotStep_inv` — one round keeps `ParticipationInv`: the counter drops only when the bit
  shifted out is set, so it never wraps below zero.
* `SlotReachable` — the states of every round of every block from the initial state.
-/

namespace HiveChain
namespace Chain

open Bits

/-! ## `uint128_popcount` -/

theorem popcountMasks_eq :
    popcountMasks = [blockMask 1 32, blockMask 2 16, blockMask 4 8, blockMask 8 4, blockMask 16 2,
      blockMask 32 1] := by
  decide

theorem popcountLoop_cons {w k : Nat} (hw : 0 < w) (hk : 2 * w * k = 64) (ms : List Nat) (x : Nat) :
    popcountLoop w (blockMask w k :: ms) x = popcountLoop (2 * w) ms (swarStep w k x) := by
  have hlt : swarStep w k x < 2 ^ 64 := hk ▸ swarStep_lt hw k x
  rw [popcountLoop, ← two_mul]
  unfold swarStep at hlt
  rw [Nat.mod_eq_of_lt hlt]
  rfl

theorem popcount64_eq (x : Nat) : popcount64 x = bitCount 64 x := by
  -- each round halves the number of blocks and keeps their sum
  have h1 : blockSum 2 32 (swarStep 1 32 x) = blockSum 1 64 x := blockSum_swarStep (by decide) 32 x
  have h2 : blockSum 4 16 (swarStep 2 16 (swarStep 1 32 x)) = blockSum 2 32 (swarStep 1 32 x) :=
    blockSum_swarStep (by decide) 16 _
  have h3 : blockSum 8 8 (swarStep 4 8 (swarStep 2 16 (swarStep 1 32 x))) =
      blockSum 4 16 (swarStep 2 16 (swarStep 1 32 x)) := blockSum_swarStep (by decide) 8 _
  have h4 : blockSum 16 4 (swarStep 8 4 (swarStep 4 8 (swarStep 2 16 (swarStep 1 32 x)))) =
      blockSum 8 8 (swarStep 4 8 (swarStep 2 16 (swarStep 1 32 x))) := blockSum_swarStep (by decide) 4 _
  have h5 : blockSum 32 2 (swarStep 16 2 (swarStep 8 4 (swarStep 4 8 (swarStep 2 16 (swarStep 1 32 x))))) =
      blockSum 16 4 (swarStep 8 4 (swarStep 4 8 (swarStep 2 16 (swarStep 1 32 x)))) :=
    blockSum_swarStep (by decide) 2 _
  set y := swarStep 16 2 (swarStep 8 4 (swarStep 4 8 (swarStep 2 16 (swarStep 1 32 x))))
  have h6 : blockSum 64 1 (swarStep 32 1 y) = blockSum 32 2 y := blockSum_swarStep (by decide) 1 y
  have hlast : swarStep 32 1 y = bitCount 64 x := by
    have hlt : swarStep 32 1 y < 2 ^ 64 := swarStep_lt (by decide) 1 y
    rw [← Nat.mod_eq_of_lt hlt, ← blockSum_single, h6, h5, h4, h3, h2, h1, blockSum_one]
  unfold popcount64
  rw [popcountMasks_eq, popcountLoop_cons (by decide) (by decide), popcountLoop_cons (by decide) (by decide),
    popcountLoop_cons (by decide) (by decide), popcountLoop_cons (by decide) (by decide),
    popcountLoop_cons (by decide) (by decide), popcountLoop_cons (by decide) (by decide), popcountLoop,
    hlast, Nat.mod_eq_of_lt (lt_of_le_of_lt (bitCount_le 64 x) (by decide))]

theorem uint128Popcount_eq {u : Nat} : uint128Popcount u = bitCount 128 u := by
  unfold uint128Popcount uint128LowBits uint128HighBits
  rw [popcount64_eq, popcount64_eq, bitCount_mod, bitCount_mod, ← bitCount_add]
  exact Nat.mod_eq_of_lt (lt_of_le_of_lt (bitCount_le 128 u) (by decide))

/-! ## The slot window -/

theorem shiftedOut_eq (u : Nat) :
    (if uint128HighBits u &&& 0x8000000000000000 ≠ 0 then 1 else 0) = u / 2 ^ 127 % 2 := by
  unfold uint128HighBits
  rw [show (0x8000000000000000 : Nat) = 2 ^ 63 by decide, Nat.and_two_pow, Nat.testBit_mod_two_pow,
    Nat.testBit_div_two_pow, Nat.testBit_eq_decide_div_mod_eq, show 63 + 64 = 127 from rfl]
  generalize u / 2 ^ 127 = v
  rcases Nat.mod_two_eq_zero_or_one v with h | h <;> simp [h]

/-- The window fits its 128 bits and the counter holds its number of set bits. -/
structure ParticipationInv (s : ParticipationState) : Prop where
  window_lt : s.recentSlotsFilled < 2 ^ 128
  count_eq : s.participationCount = bitCount 128 s.recentSlotsFilled

theorem bitCount_two_pow_sub_one (n : Nat) : bitCount n (2 ^ n - 1) = n := by
  induction n with
  | zero => rfl
  | succ n ih =>
    have hpos := Nat.two_pow_pos n
    have hmod : (2 ^ (n + 1) - 1) % 2 ^ n = 2 ^ n - 1 := by
      rw [Nat.pow_succ]
      rw [show 2 ^ n * 2 - 1 = (2 ^ n - 1) + 2 ^ n * 1 by omega, Nat.add_mul_mod_self_left,
        Nat.mod_eq_of_lt (by omega)]
    have hdiv : (2 ^ (n + 1) - 1) / 2 ^ n % 2 = 1 := by
      rw [Nat.pow_succ, show 2 ^ n * 2 - 1 = (2 ^ n - 1) + 2 ^ n * 1 by omega,
        Nat.add_mul_div_left _ _ hpos, Nat.div_eq_of_lt (by omega)]
    rw [bitCount_succ_top, ← bitCount_mod, hmod, ih, hdiv]

theorem ParticipationInv.initial : ParticipationInv ParticipationState.initial :=
  ⟨by decide, (bitCount_two_pow_sub_one 128).symm⟩

theorem slotStep_inv {s : ParticipationState} (hs : ParticipationInv s) (i : Nat) :
    ParticipationInv (slotStep s i) ∧
      (uint128HighBits s.recentSlotsFilled &&& 0x8000000000000000 ≠ 0 → 1 ≤ s.participationCount) := by
  have hshift : bitCount 128 ((2 * s.recentSlotsFilled + (if i = 0 then 1 else 0)) % 2 ^ 128) +
      s.recentSlotsFilled / 2 ^ 127 % 2 = bitCount 128 s.recentSlotsFilled + (if i = 0 then 1 else 0) :=
    bitCount_shift_in 127 s.recentSlotsFilled _ (by split <;> omega)
  have htop : bitCount 128 s.recentSlotsFilled =
      bitCount 127 s.recentSlotsFilled + s.recentSlotsFilled / 2 ^ 127 % 2 :=
    bitCount_succ_top 127 s.recentSlotsFilled
  have hle := bitCount_le 128 ((2 * s.recentSlotsFilled + (if i = 0 then 1 else 0)) % 2 ^ 128)
  have hcount := hs.count_eq
  have hout := shiftedOut_eq s.recentSlotsFilled
  have hbit : (if i = 0 then 1 else 0) < 2 := by split <;> omega
  refine ⟨⟨Nat.mod_lt _ (by decide), ?_⟩, ?_⟩
  · -- the counter is at least the bit shifted out, so the `uint8_t` arithmetic is exact
    unfold slotStep
    dsimp only
    rw [hout, Nat.shiftLeft_eq, Nat.pow_one, Nat.mul_comm]
    generalize (if i = 0 then 1 else 0) = b at hshift hle hbit ⊢
    omega
  · intro h
    rw [if_pos h] at hout
    omega

/-- The states of every round of every block from the initial state. -/
inductive SlotReachable : ParticipationState → Prop
  | initial : SlotReachable ParticipationState.initial
  | step {s : ParticipationState} (i : Nat) : SlotReachable s → SlotReachable (slotStep s i)

theorem SlotReachable.inv {s : ParticipationState} (h : SlotReachable s) : ParticipationInv s := by
  induction h with
  | initial => exact ParticipationInv.initial
  | step i _ ih => exact (slotStep_inv ih i).1

theorem SlotReachable.foldl {s : ParticipationState} (h : SlotReachable s) (rounds : List Nat) :
    SlotReachable (rounds.foldl slotStep s) := by
  induction rounds generalizing s with
  | nil => exact h
  | cons i rounds ih =>
    rw [List.foldl_cons]
    exact ih (h.step i)

theorem SlotReachable.run {s : ParticipationState} (h : SlotReachable s) (slots : List Nat) :
    SlotReachable (runParticipation slots s) := by
  induction slots generalizing s with
  | nil => exact h
  | cons slot slots ih =>
    rw [runParticipation, List.foldl_cons]
    exact ih (h.foldl _)

theorem witnessParticipationRate_eq {s : ParticipationState} (hs : ParticipationInv s) :
    witnessParticipationRate s = hive100Percent * s.participationCount / 128 := by
  have hle : s.participationCount ≤ 128 := hs.count_eq ▸ bitCount_le 128 s.recentSlotsFilled
  unfold witnessParticipationRate hive100Percent
  rw [uint128Popcount_eq, ← hs.count_eq]
  omega

/-- After any chain of blocks with any numbers of missed slots, in every round on the way, the
counter holds the number of set bits of the window, `uint128_popcount` agrees with it, and the
counter is decremented only when positive. -/
theorem participation_count_tracks_slots (slots : List Nat) :
    SlotReachable (runParticipation slots ParticipationState.initial) ∧
      ∀ s, SlotReachable s →
        s.participationCount = bitCount 128 s.recentSlotsFilled ∧
        uint128Popcount s.recentSlotsFilled = s.participationCount ∧
        witnessParticipationRate s = hive100Percent * s.participationCount / 128 ∧
        (uint128HighBits s.recentSlotsFilled &&& 0x8000000000000000 ≠ 0 → 1 ≤ s.participationCount) := by
  refine ⟨SlotReachable.initial.run slots, ?_⟩
  intro s hs
  have hinv := hs.inv
  refine ⟨hinv.count_eq, ?_, witnessParticipationRate_eq hinv, (slotStep_inv hinv 0).2⟩
  rw [uint128Popcount_eq, hinv.count_eq]

end Chain
end HiveChain
