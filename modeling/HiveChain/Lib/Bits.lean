import Mathlib.Data.Nat.Bitwise
import Mathlib.Tactic.Ring

/-!
# HiveChain.Lib.Bits

Counting set bits, and the SWAR ("SIMD within a register") way of doing it with masks.

* `bitCount n x` — the number of set bits among the low `n` bits of `x`.
* `blockSum w k x` — the sum of the low `k` blocks of `w` bits of `x`; with `w = 1` it is
  `bitCount`.
* `blockMask w k` — `k` blocks of `2w` bits, each with its low `w` bits set.
* `swarStep w k x = (x &&& M) + ((x >>> w) &&& M)` for that mask: each block of `2w` bits now
  holds the sum of its two halves, so the block sum at width `2w` is the block sum at width `w`.
-/

namespace HiveChain
namespace Bits

/-- The number of set bits among the low `n` bits of `x`. -/
def bitCount (n x : Nat) : Nat := (List.range n).countP (fun i => x.testBit i)

/-- The sum of the low `k` blocks of `w` bits. -/
def blockSum (w : Nat) : Nat → Nat → Nat
  | 0, _ => 0
  | k + 1, x => x % 2 ^ w + blockSum w k (x / 2 ^ w)

/-- `k` blocks of `2w` bits with their low `w` bits set. -/
def blockMask (w : Nat) : Nat → Nat
  | 0 => 0
  | k + 1 => (2 ^ w - 1) + 2 ^ (2 * w) * blockMask w k

/-- One round of the SWAR count on `k` blocks of `2w` bits. -/
def swarStep (w k x : Nat) : Nat := (x &&& blockMask w k) + ((x >>> w) &&& blockMask w k)

/-! ## Counting bits -/

theorem bitCount_zero (x : Nat) : bitCount 0 x = 0 := rfl

theorem bitCount_succ (n x : Nat) : bitCount (n + 1) x = x % 2 + bitCount n (x / 2) := by
  unfold bitCount
  rw [List.range_succ_eq_map, List.countP_cons, List.countP_map]
  have hbits : (fun i => x.testBit i) ∘ Nat.succ = fun i => (x / 2).testBit i := by
    funext i
    simp [Nat.testBit_div_two]
  rw [hbits, Nat.testBit_zero]
  rcases Nat.mod_two_eq_zero_or_one x with h | h
  · simp [h]
  · simp [h]
    omega

theorem bitCount_succ_top (n x : Nat) : bitCount (n + 1) x = bitCount n x + x / 2 ^ n % 2 := by
  unfold bitCount
  rw [List.range_succ, List.countP_append, List.countP_singleton, Nat.testBit_eq_decide_div_mod_eq]
  rcases Nat.mod_two_eq_zero_or_one (x / 2 ^ n) with h | h <;> simp [h]

theorem bitCount_le (n x : Nat) : bitCount n x ≤ n := by
  unfold bitCount
  exact (List.countP_le_length).trans (List.length_range).le

theorem bitCount_mod (n x : Nat) : bitCount n (x % 2 ^ n) = bitCount n x := by
  induction n generalizing x with
  | zero => rfl
  | succ n ih =>
    rw [bitCount_succ, bitCount_succ, Nat.pow_succ', Nat.mod_mul_right_div_self, ih,
      Nat.mod_mul_right_mod]

theorem bitCount_add (m n x : Nat) : bitCount (m + n) x = bitCount m x + bitCount n (x / 2 ^ m) := by
  induction m generalizing x with
  | zero => simp [bitCount_zero]
  | succ m ih =>
    rw [Nat.add_right_comm, bitCount_succ, ih, bitCount_succ, Nat.div_div_eq_div_mul, Nat.pow_succ']
    omega

theorem bitCount_shift_in (n x b : Nat) (hb : b < 2) :
    bitCount (n + 1) ((2 * x + b) % 2 ^ (n + 1)) + x / 2 ^ n % 2 = bitCount (n + 1) x + b := by
  rw [bitCount_mod, bitCount_succ, bitCount_succ_top]
  have hlow : (2 * x + b) % 2 = b := by omega
  have hhigh : (2 * x + b) / 2 = x := by omega
  rw [hlow, hhigh]
  omega

/-! ## Block sums -/

theorem blockSum_one (n x : Nat) : blockSum 1 n x = bitCount n x := by
  induction n generalizing x with
  | zero => rfl
  | succ n ih =>
    rw [blockSum, ih, bitCount_succ, Nat.pow_one]

theorem blockSum_single (w x : Nat) : blockSum w 1 x = x % 2 ^ w := by
  simp [blockSum]

/-! ## The SWAR round -/

theorem testBit_add_two_pow_mul {m a : Nat} (ha : a < 2 ^ m) (b i : Nat) :
    (a + 2 ^ m * b).testBit i = if i < m then a.testBit i else b.testBit (i - m) := by
  split
  · rename_i hi
    have hlow := Nat.testBit_mod_two_pow (a + 2 ^ m * b) m i
    rw [Nat.add_mul_mod_self_left, Nat.mod_eq_of_lt ha] at hlow
    simpa [hi] using hlow.symm
  · rename_i hi
    have hdiv : (a + 2 ^ m * b) / 2 ^ m = b := by
      rw [Nat.add_mul_div_left _ _ (Nat.two_pow_pos m), Nat.div_eq_of_lt ha, Nat.zero_add]
    have hhigh := Nat.testBit_div_two_pow (n := m) (a + 2 ^ m * b) (i - m)
    rw [hdiv, Nat.sub_add_cancel (by omega)] at hhigh
    exact hhigh.symm

theorem and_add_two_pow_mul {m a b c d : Nat} (ha : a < 2 ^ m) (hc : c < 2 ^ m) :
    (a + 2 ^ m * b) &&& (c + 2 ^ m * d) = (a &&& c) + 2 ^ m * (b &&& d) := by
  apply Nat.eq_of_testBit_eq
  intro i
  rw [Nat.testBit_and, testBit_add_two_pow_mul ha, testBit_add_two_pow_mul hc,
    testBit_add_two_pow_mul (Nat.and_lt_two_pow a hc)]
  split <;> simp [Nat.testBit_and]

theorem and_blockMask_succ (w k x : Nat) :
    x &&& blockMask w (k + 1) = x % 2 ^ w + 2 ^ (2 * w) * (x / 2 ^ (2 * w) &&& blockMask w k) := by
  have hlow : 2 ^ w - 1 < 2 ^ (2 * w) := by
    have : 2 ^ w ≤ 2 ^ (2 * w) := Nat.pow_le_pow_right (by decide) (by omega)
    have := Nat.two_pow_pos (2 * w)
    omega
  conv_lhs => rw [← Nat.mod_add_div x (2 ^ (2 * w))]
  rw [blockMask, and_add_two_pow_mul (Nat.mod_lt _ (Nat.two_pow_pos _)) hlow,
    Nat.and_two_pow_sub_one_eq_mod, Nat.mod_mod_of_dvd _ (Nat.pow_dvd_pow 2 (by omega))]

theorem swarStep_succ (w k x : Nat) :
    swarStep w (k + 1) x =
      (x % 2 ^ w + x / 2 ^ w % 2 ^ w) + 2 ^ (2 * w) * swarStep w k (x / 2 ^ (2 * w)) := by
  unfold swarStep
  rw [and_blockMask_succ, and_blockMask_succ, Nat.shiftRight_eq_div_pow, Nat.shiftRight_eq_div_pow,
    Nat.div_div_eq_div_mul, Nat.div_div_eq_div_mul, Nat.mul_comm (2 ^ w)]
  ring

theorem halves_lt {w : Nat} (hw : 0 < w) (x : Nat) : x % 2 ^ w + x / 2 ^ w % 2 ^ w < 2 ^ (2 * w) := by
  have h1 := Nat.mod_lt x (Nat.two_pow_pos w)
  have h2 := Nat.mod_lt (x / 2 ^ w) (Nat.two_pow_pos w)
  have : 2 ^ w * 2 ≤ 2 ^ (2 * w) := by
    rw [← Nat.pow_succ]
    exact Nat.pow_le_pow_right (by decide) (by omega)
  omega

theorem swarStep_lt {w : Nat} (hw : 0 < w) (k x : Nat) : swarStep w k x < 2 ^ (2 * w * k) := by
  induction k generalizing x with
  | zero => simp [swarStep, blockMask]
  | succ k ih =>
    rw [swarStep_succ]
    have hsum := halves_lt hw x
    have hrest := ih (x / 2 ^ (2 * w))
    rw [Nat.mul_succ, Nat.pow_add]
    calc x % 2 ^ w + x / 2 ^ w % 2 ^ w + 2 ^ (2 * w) * swarStep w k (x / 2 ^ (2 * w))
        < 2 ^ (2 * w) + 2 ^ (2 * w) * swarStep w k (x / 2 ^ (2 * w)) := by omega
      _ = 2 ^ (2 * w) * (swarStep w k (x / 2 ^ (2 * w)) + 1) := by ring
      _ ≤ 2 ^ (2 * w) * 2 ^ (2 * w * k) := Nat.mul_le_mul_left _ hrest
      _ = 2 ^ (2 * w * k) * 2 ^ (2 * w) := Nat.mul_comm _ _

theorem blockSum_swarStep {w : Nat} (hw : 0 < w) (k x : Nat) :
    blockSum (2 * w) k (swarStep w k x) = blockSum w (2 * k) x := by
  induction k generalizing x with
  | zero => rfl
  | succ k ih =>
    have hsum := halves_lt hw x
    rw [swarStep_succ, blockSum, Nat.add_mul_mod_self_left, Nat.mod_eq_of_lt hsum,
      Nat.add_mul_div_left _ _ (Nat.two_pow_pos _), Nat.div_eq_of_lt hsum, Nat.zero_add, ih,
      show 2 * (k + 1) = 2 * k + 1 + 1 by ring, blockSum, blockSum, Nat.div_div_eq_div_mul,
      ← Nat.pow_add, show w + w = 2 * w by ring]
    omega

end Bits
end HiveChain
