import Mathlib.Data.Nat.Digits.Lemmas

/-!
# HiveChain.Lib.Digits

Positional notation as programs write and read it: most significant digit first.

* `readBE b ds` — the value a left-to-right parser accumulates, `acc * b + d` per digit.
* `fixedBE b k x` — `x` written in exactly `k` digits, the high ones dropped and the missing
  ones zero: a fixed-width field, such as the bytes of a machine word.
* `printBE b x` — `x` written without leading zeros, `0` as one digit: how a number is printed.

`readBE` is `Nat.ofDigits` of the reversed list, so the digit lemmas of Mathlib apply; the
results here are what a round trip needs: each writing reads back, a field is read back modulo
its width, and digits of one length and one value are the same digits. Digits of one length
also compare as their values do, lexicographically (`readBE_lt_readBE_iff`).
-/

namespace HiveChain
namespace Digits

variable {b : Nat}

/-- The value of the digits `ds` in base `b`, most significant first. -/
def readBE (b : Nat) (ds : List Nat) : Nat := ds.foldl (fun acc d => acc * b + d) 0

/-- `x` in exactly `k` digits of base `b`, most significant first. -/
def fixedBE (b : Nat) : Nat → Nat → List Nat
  | 0, _ => []
  | k + 1, x => fixedBE b k (x / b) ++ [x % b]

/-- `x` in base `b` without leading zeros, most significant first; `0` is one digit. -/
def printBE (b x : Nat) : List Nat := if x = 0 then [0] else (Nat.digits b x).reverse

theorem readBE_eq_ofDigits (ds : List Nat) : readBE b ds = Nat.ofDigits b ds.reverse := by
  unfold readBE
  rw [← List.foldr_reverse]
  induction ds.reverse with
  | nil => rfl
  | cons d ds ih =>
    rw [List.foldr_cons, ih, Nat.ofDigits_cons]
    ring

@[simp] theorem readBE_nil : readBE b [] = 0 := rfl

theorem readBE_append (l m : List Nat) :
    readBE b (l ++ m) = readBE b l * b ^ m.length + readBE b m := by
  rw [readBE_eq_ofDigits, readBE_eq_ofDigits, readBE_eq_ofDigits, List.reverse_append,
    Nat.ofDigits_append, List.length_reverse]
  ring

theorem readBE_cons (d : Nat) (ds : List Nat) : readBE b (d :: ds) = d * b ^ ds.length + readBE b ds := by
  rw [← List.singleton_append, readBE_append]
  simp [readBE]

theorem readBE_lt (hb : 1 < b) {ds : List Nat} (h : ∀ d ∈ ds, d < b) :
    readBE b ds < b ^ ds.length := by
  rw [readBE_eq_ofDigits, ← List.length_reverse]
  exact Nat.ofDigits_lt_base_pow_length hb (fun d hd => h d (List.mem_reverse.1 hd))

theorem eq_of_readBE_eq (hb : 1 < b) {l m : List Nat} (hlen : l.length = m.length)
    (hl : ∀ d ∈ l, d < b) (hm : ∀ d ∈ m, d < b) (h : readBE b l = readBE b m) : l = m := by
  rw [readBE_eq_ofDigits, readBE_eq_ofDigits] at h
  have hrev := Nat.ofDigits_inj_of_len_eq hb (by simp [hlen])
    (fun d hd => hl d (List.mem_reverse.1 hd)) (fun d hd => hm d (List.mem_reverse.1 hd)) h
  exact List.reverse_injective hrev

/-! ## Comparing by digits -/

theorem mul_add_lt_mul_add_iff {B x y r s : Nat} (hr : r < B) (hs : s < B) :
    x * B + r < y * B + s ↔ x < y ∨ x = y ∧ r < s := by
  constructor
  · intro h
    rcases lt_trichotomy x y with hxy | rfl | hxy
    · exact .inl hxy
    · exact .inr ⟨rfl, by omega⟩
    · have hmul : (y + 1) * B ≤ x * B := Nat.mul_le_mul_right B hxy
      rw [Nat.succ_mul] at hmul
      omega
  · rintro (hxy | ⟨rfl, hrs⟩)
    · have hmul : (x + 1) * B ≤ y * B := Nat.mul_le_mul_right B hxy
      rw [Nat.succ_mul] at hmul
      omega
    · omega

theorem append_lt_append_iff {α : Type} [LT α] {l₁ m₁ : List α} (l₂ m₂ : List α)
    (hlen : l₁.length = m₁.length) : l₁ ++ l₂ < m₁ ++ m₂ ↔ l₁ < m₁ ∨ l₁ = m₁ ∧ l₂ < m₂ := by
  induction l₁ generalizing m₁ with
  | nil =>
    rw [List.length_nil, eq_comm, List.length_eq_zero_iff] at hlen
    subst hlen
    simp [List.not_lt_nil]
  | cons x l₁ ih =>
    obtain ⟨y, m₁, rfl⟩ := List.exists_cons_of_length_eq_add_one hlen.symm
    rw [List.cons_append, List.cons_append, List.cons_lt_cons_iff, List.cons_lt_cons_iff,
      ih (by simpa using hlen), List.cons.injEq]
    tauto

theorem readBE_lt_readBE_iff (hb : 1 < b) {l m : List Nat} (hlen : l.length = m.length)
    (hl : ∀ d ∈ l, d < b) (hm : ∀ d ∈ m, d < b) : readBE b l < readBE b m ↔ l < m := by
  induction l generalizing m with
  | nil =>
    rw [List.length_nil, eq_comm, List.length_eq_zero_iff] at hlen
    subst hlen
    simp
  | cons x l ih =>
    obtain ⟨y, m, rfl⟩ := List.exists_cons_of_length_eq_add_one hlen.symm
    have hlen' : l.length = m.length := by simpa using hlen
    have hrl := readBE_lt hb fun d hd => hl d (List.mem_cons_of_mem x hd)
    have hrm := readBE_lt hb fun d hd => hm d (List.mem_cons_of_mem y hd)
    rw [hlen'] at hrl
    rw [readBE_cons, readBE_cons, hlen', mul_add_lt_mul_add_iff hrl hrm, List.cons_lt_cons_iff,
      ih hlen' (fun d hd => hl d (List.mem_cons_of_mem x hd)) (fun d hd => hm d (List.mem_cons_of_mem y hd))]

/-! ## Fixed width -/

@[simp] theorem fixedBE_length (k x : Nat) : (fixedBE b k x).length = k := by
  induction k generalizing x with
  | zero => rfl
  | succ k ih => simp [fixedBE, ih]

theorem fixedBE_lt (hb : 0 < b) {k x : Nat} : ∀ d ∈ fixedBE b k x, d < b := by
  induction k generalizing x with
  | zero => simp [fixedBE]
  | succ k ih =>
    intro d hd
    rw [fixedBE, List.mem_append, List.mem_singleton] at hd
    rcases hd with hd | rfl
    · exact ih d hd
    · exact Nat.mod_lt x hb

theorem readBE_fixedBE (k x : Nat) : readBE b (fixedBE b k x) = x % b ^ k := by
  induction k generalizing x with
  | zero => simp [fixedBE, Nat.mod_one]
  | succ k ih =>
    rw [fixedBE, readBE_append, ih]
    simp only [readBE, List.foldl_cons, List.foldl_nil, List.length_singleton, pow_one,
      Nat.zero_mul, Nat.zero_add]
    rw [Nat.pow_succ', Nat.mod_mul]
    ring

theorem fixedBE_add (m k x : Nat) : fixedBE b (m + k) x = fixedBE b m (x / b ^ k) ++ fixedBE b k x := by
  induction k generalizing x with
  | zero => simp [fixedBE]
  | succ k ih =>
    rw [← Nat.add_assoc, fixedBE, ih, fixedBE, List.append_assoc, Nat.div_div_eq_div_mul,
      Nat.pow_succ']

/-! ## Printing -/

theorem printBE_lt (hb : 1 < b) (x : Nat) : ∀ d ∈ printBE b x, d < b := by
  unfold printBE
  split
  · simp only [List.mem_singleton, forall_eq]
    omega
  · intro d hd
    exact Nat.digits_lt_base hb (List.mem_reverse.1 hd)

theorem readBE_printBE (x : Nat) : readBE b (printBE b x) = x := by
  unfold printBE
  split
  · subst x
    simp [readBE]
  · rw [readBE_eq_ofDigits, List.reverse_reverse, Nat.ofDigits_digits]

theorem printBE_ne_nil (x : Nat) : printBE b x ≠ [] := by
  unfold printBE
  split
  · simp
  · rename_i hx
    simp only [ne_eq, List.reverse_eq_nil_iff]
    exact Nat.digits_ne_nil_iff_ne_zero.2 hx

theorem printBE_length_le (hb : 1 < b) {k x : Nat} (hk : 0 < k) (hx : x < b ^ k) :
    (printBE b x).length ≤ k := by
  unfold printBE
  split
  · simp only [List.length_singleton]
    omega
  · rename_i hx0
    rw [List.length_reverse, Nat.length_digits b x hb hx0]
    have := Nat.log_lt_of_lt_pow hx0 hx
    omega

theorem printBE_pow_add (hb : 1 < b) {k r : Nat} (hr : r < b ^ k) :
    printBE b (b ^ k + r) = 1 :: fixedBE b k r := by
  have hpos : b ^ k + r ≠ 0 := by positivity
  have hlen : (printBE b (b ^ k + r)).length = k + 1 := by
    unfold printBE
    rw [if_neg hpos, List.length_reverse, Nat.length_digits b _ hb hpos]
    have hlog : Nat.log b (b ^ k + r) = k := by
      rw [Nat.log_eq_iff (Or.inr ⟨hb, hpos⟩)]
      refine ⟨by omega, ?_⟩
      rw [Nat.pow_succ]
      have : b ^ k * 2 ≤ b ^ k * b := Nat.mul_le_mul_left _ hb
      omega
    omega
  apply eq_of_readBE_eq hb (by simp [hlen]) (printBE_lt hb _)
  · intro d hd
    rcases List.mem_cons.1 hd with rfl | hd
    · exact hb
    · exact fixedBE_lt (by omega) d hd
  · rw [readBE_printBE, readBE_cons, readBE_fixedBE, fixedBE_length, Nat.mod_eq_of_lt hr]
    ring

/-! ## Decimal text -/

/-- The character of a decimal digit. -/
def digitChar (d : Nat) : Char := Char.ofNat (48 + d)

/-- Whether a character is one of `0`–`9`. -/
def isDigitChar (c : Char) : Bool := 48 ≤ c.toNat && c.toNat ≤ 57

/-- The digit a character `0`–`9` stands for. -/
def charDigit (c : Char) : Nat := c.toNat - 48

theorem digitChar_toNat {d : Nat} (hd : d < 10) : (digitChar d).toNat = 48 + d := by
  interval_cases d <;> rfl

theorem charDigit_digitChar {d : Nat} (hd : d < 10) : charDigit (digitChar d) = d := by
  unfold charDigit
  rw [digitChar_toNat hd]
  omega

theorem isDigitChar_digitChar {d : Nat} (hd : d < 10) : isDigitChar (digitChar d) = true := by
  unfold isDigitChar
  rw [digitChar_toNat hd]
  simp only [Bool.and_eq_true, decide_eq_true_eq]
  omega

theorem all_isDigitChar_map_digitChar {ds : List Nat} (h : ∀ d ∈ ds, d < 10) :
    (ds.map digitChar).all isDigitChar = true := by
  rw [List.all_eq_true]
  intro c hc
  obtain ⟨d, hd, rfl⟩ := List.mem_map.1 hc
  exact isDigitChar_digitChar (h d hd)

/-- The decimal value of digit characters, read left to right. -/
def readDecimal (cs : List Char) : Nat := readBE 10 (cs.map charDigit)

theorem readDecimal_map_digitChar {ds : List Nat} (h : ∀ d ∈ ds, d < 10) :
    readDecimal (ds.map digitChar) = readBE 10 ds := by
  unfold readDecimal
  rw [List.map_map]
  have hid : ds.map (charDigit ∘ digitChar) = ds.map id :=
    List.map_congr_left fun d hd => charDigit_digitChar (h d hd)
  rw [hid, List.map_id]

end Digits
end HiveChain
