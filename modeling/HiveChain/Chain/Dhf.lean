import HiveChain.Chain.Market

/-!
# HiveChain.Chain.Dhf

The payments of the decentralized hive fund (`dhf_processor::sort_by_votes`,
`calculate_maintenance_budget` and `transfer_payments`).

* A proposal keeps its `daily_pay` as the `int64` value of its HBD amount: from
  `HIVE_HARDFORK_1_25` on `period_pay` is `passed_time_seconds * daily_pay` in `int64`
  (`periodPay`), before it the `uint128` ratio of the older formula.
* `passedTimeSeconds` is `( head_time - last_budget_time ).to_seconds()` as the `uint32_t` both
  functions compute.
* Payments go through `adjust_balance` of the market model, on the HBD balances of the treasury
  and of the receivers.
-/

namespace HiveChain
namespace Chain

open EState

/-- `proposal_object`: the fields the payments read. -/
structure Proposal (Acc : Type) where
  proposalId : Nat
  receiver : Acc
  dailyPay : Int64
  totalVotes : Nat

/-- `daily_seconds`. -/
def dailySeconds : Nat := 60 * 60 * 24

/-- `total_amount_divider`. -/
def totalAmountDivider : Nat := 100

/-- `sort_by_votes`: more votes first, the lower id first at equal votes. -/
def sortByVotes {Acc : Type} (proposals : List (Proposal Acc)) : List (Proposal Acc) :=
  proposals.mergeSort fun a b =>
    if a.totalVotes = b.totalVotes then decide (a.proposalId < b.proposalId)
    else decide (a.totalVotes > b.totalVotes)

/-- The `period_pay` of a proposal. From `HIVE_HARDFORK_1_25` on the product is taken in
`int64`, the `uint32_t` time converted to it; before, the ratio is taken in `uint32_t` and the
product in `uint128_t`, cut by `uint128_to_uint64`. -/
def periodPay (hf25 : Bool) (passedTimeSeconds : UInt32) (dailyPay : Int64) : Except String Int :=
  if hf25 then
    .ok ((Int64.ofNat passedTimeSeconds.toNat * dailyPay) / Int64.ofNat dailySeconds).toInt
  else
    let ratio := passedTimeSeconds.toNat * hive100Percent % 2 ^ 32 / dailySeconds
    let r := ratio * dailyPay.toInt.toNat
    if r ≤ 2 ^ 64 - 1 then .ok (r / hive100Percent : Nat) else .error ""

theorem int64_size_eq : (Int64.size : Int) = 18446744073709551616 := rfl

theorem two_pow_64_eq : ((2 ^ 64 : Nat) : Int) = 18446744073709551616 := rfl

theorem toInt_ofNat_uint32 (t : UInt32) : (Int64.ofNat t.toNat).toInt = t.toNat := by
  rw [Int64.toInt_ofNat']
  have ht := t.toNat_lt
  apply Int.bmod_eq_of_le <;> rw [int64_size_eq] <;> omega

theorem tdiv_mem_of_mem {x lo hi : Int} {b : Int} (hb : 0 ≤ b) (hlo₀ : lo ≤ 0) (hhi₀ : 0 ≤ hi)
    (hlo : lo ≤ x) (hhi : x ≤ hi) : lo ≤ x.tdiv b ∧ x.tdiv b ≤ hi := by
  rcases le_or_gt 0 x with hx | hx
  · have := Int.tdiv_le_self b hx
    have := Int.tdiv_nonneg hx hb
    omega
  · have hneg : (-x).tdiv b ≤ -x := Int.tdiv_le_self b (by omega)
    have hnn : 0 ≤ (-x).tdiv b := Int.tdiv_nonneg (by omega) hb
    rw [Int.neg_tdiv] at hneg hnn
    omega

theorem periodPay_hf25 (t : UInt32) (d : Int64) :
    periodPay true t d = .ok ((((t.toNat : Int) * d.toInt).bmod (2 ^ 64)).tdiv 86400) := by
  simp only [periodPay, if_true]
  congr 1
  have hday : (Int64.ofNat dailySeconds).toInt = 86400 := by decide
  rw [Int64.toInt_div, Int64.toInt_mul, toInt_ofNat_uint32, hday]
  -- the quotient of a wrapped product by a day is again within `int64`
  set x := ((t.toNat : Int) * d.toInt).bmod (2 ^ 64)
  have hlo : -((2 ^ 64 : Nat) / 2 : Int) ≤ x := Int.le_bmod (by decide)
  have hhi : x < (((2 ^ 64 : Nat) + 1) / 2 : Int) := Int.bmod_lt (by decide)
  rw [two_pow_64_eq] at hlo hhi
  obtain ⟨hq₁, hq₂⟩ := tdiv_mem_of_mem (b := 86400) (by decide) (by decide) (by decide) hlo
    (by omega : x ≤ 9223372036854775807)
  apply Int.bmod_eq_of_le <;> rw [two_pow_64_eq] <;> omega

theorem periodPay_hf25_of_lt {t : UInt32} {d : Int64} (h0 : 0 ≤ d.toInt)
    (hlt : (t.toNat : Int) * d.toInt < 2 ^ 63) :
    periodPay true t d = .ok ((t.toNat : Int) * d.toInt / 86400) := by
  have hnn : 0 ≤ (t.toNat : Int) * d.toInt := Int.mul_nonneg (Int.natCast_nonneg _) h0
  have hself : ((t.toNat : Int) * d.toInt).bmod (2 ^ 64) = (t.toNat : Int) * d.toInt := by
    apply Int.bmod_eq_of_le <;> rw [two_pow_64_eq] <;> omega
  rw [periodPay_hf25, hself, Int.tdiv_eq_ediv_of_nonneg hnn]

theorem periodPay_hf25_neg {t : UInt32} {d : Int64}
    (hge : 2 ^ 63 ≤ (t.toNat : Int) * d.toInt) (hle : (t.toNat : Int) * d.toInt ≤ 2 ^ 64 - 86400) :
    ∃ pay, periodPay true t d = .ok pay ∧ pay < 0 := by
  refine ⟨_, periodPay_hf25 t d, ?_⟩
  set x := (t.toNat : Int) * d.toInt
  -- the wrapped product is `x - 2^64`, at most minus a day
  have hmod : x % ((2 ^ 64 : Nat) : Int) = x := by
    rw [two_pow_64_eq]
    exact Int.emod_eq_of_lt (by omega) (by omega)
  have hwrap : x.bmod (2 ^ 64) = x - 2 ^ 64 := by
    rw [Int.bmod_neg x _ (by rw [hmod, two_pow_64_eq]; omega), hmod, two_pow_64_eq]
    omega
  have hq : 1 ≤ (2 ^ 64 - x) / 86400 := (Int.le_ediv_iff_mul_le (by decide)).mpr (by omega)
  rw [hwrap, show x - 2 ^ 64 = -(2 ^ 64 - x) by omega, Int.neg_tdiv,
    Int.tdiv_eq_ediv_of_nonneg (by omega)]
  omega

/-- From `HIVE_HARDFORK_1_25` on, `period_pay` of a non-negative daily pay is the pay for the time
passed, rounded down, while the product fits in `int64`; from `2 ^ 63` up to `2 ^ 64` less a day
it is negative. -/
theorem period_pay_wraps_past_int64 {t : UInt32} {d : Int64} (h0 : 0 ≤ d.toInt) :
    ((t.toNat : Int) * d.toInt < 2 ^ 63 → periodPay true t d = .ok ((t.toNat : Int) * d.toInt / 86400)) ∧
      (2 ^ 63 ≤ (t.toNat : Int) * d.toInt → (t.toNat : Int) * d.toInt ≤ 2 ^ 64 - 86400 →
        ∃ pay, periodPay true t d = .ok pay ∧ pay < 0) :=
  ⟨periodPay_hf25_of_lt h0, periodPay_hf25_neg⟩

theorem period_pay_wraps_past_int64_hour :
    (((3600 : UInt32).toNat : Int) * (4503599627370496 : Int64).toInt < 2 ^ 63 →
        periodPay true 3600 4503599627370496 =
          .ok (((3600 : UInt32).toNat : Int) * (4503599627370496 : Int64).toInt / 86400)) ∧
      (2 ^ 63 ≤ ((3600 : UInt32).toNat : Int) * (4503599627370496 : Int64).toInt →
        ((3600 : UInt32).toNat : Int) * (4503599627370496 : Int64).toInt ≤ 2 ^ 64 - 86400 →
        ∃ pay, periodPay true 3600 4503599627370496 = .ok pay ∧ pay < 0) :=
  period_pay_wraps_past_int64 (by decide)

variable {Acc : Type} [DecidableEq Acc]

/-- `calculate_maintenance_budget`: the treasury's daily hundredth for the time passed. -/
def calculateMaintenanceBudget (treasury : Acc) (passedTimeSeconds : UInt32) :
    MarketM Acc Int := do
  let s ← get
  let dailyBudgetLimit := (s.hbdBalance treasury).tdiv totalAmountDivider
  let r := passedTimeSeconds.toNat * dailyBudgetLimit.toNat / dailySeconds
  if r ≤ 2 ^ 64 - 1 then pure r else throw ""

/-- The `processing` step of `transfer_payments`: the payment leaves the treasury for the
receiver. -/
def processing (treasury : Acc) (p : Proposal Acc) (payment : Int) : MarketM Acc Unit := do
  adjustBalance treasury ⟨-payment, .hbd⟩
  adjustBalance p.receiver ⟨payment, .hbd⟩

/-- The loop of `transfer_payments`: it stops at the first proposal without votes, and at the
first whose `period_pay` reaches what is left of the budget, which gets that rest. -/
def transferPaymentsLoop (treasury : Acc) (passedTimeSeconds : UInt32) :
    Int → List (Proposal Acc) → MarketM Acc Unit
  | _, [] => pure ()
  | budget, p :: rest => do
    if p.totalVotes = 0 then return
    let s ← get
    let pay ← fromExcept (periodPay (s.hasHardfork 25) passedTimeSeconds p.dailyPay)
    if budget ≤ pay then
      processing treasury p budget
    else
      processing treasury p pay
      transferPaymentsLoop treasury passedTimeSeconds (budget - pay) rest

/-- `transfer_payments`. -/
def transferPayments (treasury : Acc) (passedTimeSeconds : UInt32) (budget : Int)
    (proposals : List (Proposal Acc)) : MarketM Acc Unit :=
  if budget = 0 then pure () else transferPaymentsLoop treasury passedTimeSeconds budget proposals

def dhfSample : MarketState (Fin 2) where
  hardfork := 25
  headBlockTime := 0
  headBlockIdWord := 0
  hbdInterestRate := 0
  currentHbdSupply := 1000000000
  balance := fun _ => 0
  hbdBalance := fun a => if a = 0 then 1000000000 else 0
  hbdSeconds := fun _ => 0
  hbdSecondsLastUpdate := fun _ => 0
  hbdLastInterestPayment := fun _ => 0
  orders := []
  nextId := 0

def overflowProposal : Proposal (Fin 2) := ⟨0, 1, 2562047788015216, 1⟩

/-- An hour after the last budget the budget is 416.666 HBD, the proposal's `period_pay` wraps to
minus 106751991167.300 HBD, and `transfer_payments` throws in `adjust_balance` of the receiver. -/
theorem transferPayments_overflow_throws :
    (calculateMaintenanceBudget 0 3600).run dhfSample = .ok 416666 dhfSample ∧
      periodPay true 3600 overflowProposal.dailyPay = .ok (-106751991167300) ∧
      ∃ s', (transferPayments 0 3600 416666 [overflowProposal]).run dhfSample =
        .error "Account ${acc} does not have sufficient funds for balance adjustment. Required: ${r}, Available: ${a}" s' :=
  ⟨rfl, by decide, ⟨_, rfl⟩⟩

end Chain
end HiveChain
