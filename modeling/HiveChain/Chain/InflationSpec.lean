import HiveChain.Chain.Inflation
import HiveChain.Chain.FeedHistorySpec
import HiveChain.Chain.MarketSpec

/-!
# HiveChain.Chain.InflationSpec

What `process_funds` mints and where it goes.

* `inflation_narrows_to_floor` — the rate never rises from block to block, stays between 0.95%
  and 9.78%, and reaches its floor exactly at block 220,750,000, as the comment of the source
  says.
* `pay_reward_funds_within_reward` — while the reward funds' percents add up to at most 100%
  and the amounts fit, `pay_reward_funds` returns, each fund gets its part rounded down, and its
  sanity check `used_rewards <= reward` never fails.
* `process_funds_books_minted_supply` — every HIVE a block adds to `current_supply` is in a
  reward fund or in the vesting fund, every HBD it adds to `current_hbd_supply` is in a balance,
  and every VEST it mints is the producer's.
-/

namespace HiveChain
namespace Chain

open EState

/-! ## `share_type` arithmetic -/

namespace ShareType

theorem mul_zero_left (b : Int) : mul 0 b = .ok 0 := by
  unfold mul
  rw [if_neg (lt_irrefl 0)]
  split_ifs with hb h h
  · rw [int64Min_tdiv] at h
    have : 0 ≤ 2 ^ 63 / b := Int.ediv_nonneg (by norm_num) hb.le
    omega
  · rw [Int.zero_mul]
  · exact absurd h.1 (not_not.2 rfl)
  · rw [Int.zero_mul]

theorem div_of_pos {a b : Int} (hb : 0 < b) : div a b = .ok (a.tdiv b) := by
  unfold div
  rw [if_neg (by omega), if_neg (by omega)]

end ShareType

theorem percentOf_of_le {a : Int} {percent : Nat} (ha : 0 ≤ a) (hfit : a * percent ≤ int64Max) :
    percentOf a percent = .ok (a * percent / hive100Percent) := by
  have hprod : 0 ≤ a * percent := Int.mul_nonneg ha (Int.natCast_nonneg _)
  have hmul : ShareType.mul a percent = .ok (a * percent) := by
    rcases Int.lt_or_eq_of_le ha with hpos | rfl
    · exact ShareType.mul_of_le hpos (by unfold int64Min; omega) hfit
    · rw [Int.zero_mul]
      exact ShareType.mul_zero_left _
  unfold percentOf
  rw [hmul, except_ok_bind, ShareType.div_of_pos (by decide), Int.tdiv_eq_ediv_of_nonneg hprod]

theorem addAsset_ok {symbol : Symbol} {amount c : Int} {delta : Asset}
    (h : addAsset symbol amount delta = .ok c) : delta.symbol = symbol ∧ c = amount + delta.amount := by
  unfold addAsset at h
  dsimp only at h
  obtain ⟨hsym, h⟩ := except_ite_throw_bind_eq_ok.1 h
  exact ⟨hsym.symm, ShareType.add_eq_ok h⟩

/-! ## The inflation rate -/

/-- The HIVE the reward funds hold. -/
def rewardFundsTotal (fs : List RewardFund) : Int := (fs.map RewardFund.rewardBalance).sum

/-- What `pay_reward_funds` of `reward` gives a fund: its percent of `reward`, rounded down. -/
def RewardFund.share (reward : Int) (f : RewardFund) : Int := reward * f.percentContentRewards / hive100Percent

/-- A fund after `pay_reward_funds` of `reward`. -/
def RewardFund.credit (reward : Int) (f : RewardFund) : RewardFund :=
  { f with rewardBalance := f.rewardBalance + RewardFund.share reward f }

@[simp] theorem rewardFundsTotal_nil : rewardFundsTotal [] = 0 := rfl

@[simp] theorem rewardFundsTotal_cons (f : RewardFund) (fs : List RewardFund) :
    rewardFundsTotal (f :: fs) = f.rewardBalance + rewardFundsTotal fs := by
  simp [rewardFundsTotal]

theorem share_nonneg {reward : Int} (hr : 0 ≤ reward) (f : RewardFund) : 0 ≤ RewardFund.share reward f :=
  Int.ediv_nonneg (Int.mul_nonneg hr (Int.natCast_nonneg _)) (Int.natCast_nonneg _)

theorem payRewardFundsLoop_total {reward : Int} :
    ∀ {fs fs' : List RewardFund} {used used' : Int}, payRewardFundsLoop reward fs used = .ok (fs', used') →
      rewardFundsTotal fs' = rewardFundsTotal fs + (used' - used) := by
  intro fs
  induction fs with
  | nil =>
    intro fs' used used' h
    cases h
    simp
  | cons f fs ih =>
    intro fs' used used' h
    unfold payRewardFundsLoop at h
    obtain ⟨r, -, h⟩ := except_bind_eq_ok h
    obtain ⟨b, hb, h⟩ := except_bind_eq_ok h
    obtain ⟨u, hu, h⟩ := except_bind_eq_ok h
    dsimp only at h
    obtain ⟨-, h⟩ := except_ite_throw_bind_eq_ok.1 h
    obtain ⟨⟨fs₁, u₁⟩, hrec, h⟩ := except_bind_eq_ok h
    cases h
    rw [rewardFundsTotal_cons, ih hrec, rewardFundsTotal_cons, ShareType.add_eq_ok hb, ShareType.add_eq_ok hu]
    dsimp only
    omega

theorem payRewardFundsLoop_run {reward : Int} (hr : 0 ≤ reward) (hr' : reward ≤ int64Max) :
    ∀ (fs : List RewardFund) (used : Int), 0 ≤ used →
      used + (fs.map (RewardFund.share reward)).sum ≤ reward →
      (∀ f ∈ fs, reward * f.percentContentRewards ≤ int64Max ∧ 0 ≤ f.rewardBalance ∧
        f.rewardBalance + RewardFund.share reward f ≤ int64Max) →
      payRewardFundsLoop reward fs used =
        .ok (fs.map (RewardFund.credit reward), used + (fs.map (RewardFund.share reward)).sum) := by
  intro fs
  induction fs with
  | nil => intro used _ _ _; simp [payRewardFundsLoop, pure, Except.pure]
  | cons f fs ih =>
    intro used hused hpaid hfit
    obtain ⟨hprod, hbal, hbal'⟩ := hfit f List.mem_cons_self
    have hshare := share_nonneg hr f
    have hrest : 0 ≤ (fs.map (RewardFund.share reward)).sum :=
      List.sum_nonneg fun x hx => by
        obtain ⟨g, -, rfl⟩ := List.mem_map.1 hx
        exact share_nonneg hr g
    rw [List.map_cons, List.sum_cons] at hpaid
    have hr₁ : percentOf reward f.percentContentRewards = .ok (RewardFund.share reward f) :=
      percentOf_of_le hr hprod
    have hb : ShareType.add f.rewardBalance (RewardFund.share reward f) =
        .ok (f.rewardBalance + RewardFund.share reward f) :=
      ShareType.add_of_le (by unfold int64Min; omega) hbal'
    have hu : ShareType.add used (RewardFund.share reward f) = .ok (used + RewardFund.share reward f) :=
      ShareType.add_of_le (by unfold int64Min; omega) (by omega)
    have hrec := ih (used + RewardFund.share reward f) (by omega) (by omega)
      fun g hg => hfit g (List.mem_cons_of_mem f hg)
    unfold payRewardFundsLoop
    rw [hr₁, except_ok_bind, hb, except_ok_bind, hu, except_ok_bind]
    dsimp only
    rw [if_pos (by omega), hrec, except_ok_bind, List.map_cons, List.map_cons, List.sum_cons, Int.add_assoc]
    rfl

theorem sum_share_le {reward : Int} (hr : 0 ≤ reward) (fs : List RewardFund)
    (hpercent : (fs.map RewardFund.percentContentRewards).sum ≤ hive100Percent) :
    (fs.map (RewardFund.share reward)).sum ≤ reward := by
  -- each share times `HIVE_100_PERCENT` is at most `reward` times the fund's percent
  have hmul : ∀ gs : List RewardFund, (gs.map (RewardFund.share reward)).sum * hive100Percent ≤
      reward * (gs.map RewardFund.percentContentRewards).sum := by
    intro gs
    induction gs with
    | nil => simp
    | cons g gs ih =>
      have hg : RewardFund.share reward g * hive100Percent ≤ reward * g.percentContentRewards :=
        Int.ediv_mul_le _ (by unfold hive100Percent; omega)
      simp only [List.map_cons, List.sum_cons, Nat.cast_add]
      linarith
  have hall := hmul fs
  have hle : reward * ((fs.map RewardFund.percentContentRewards).sum : Nat) ≤ reward * (hive100Percent : Nat) :=
    Int.mul_le_mul_of_nonneg_left (by exact_mod_cast hpercent) hr
  have h10000 : (0 : Int) < (hive100Percent : Nat) := by unfold hive100Percent; omega
  nlinarith

variable {Acc : Type}

theorem run_payRewardFunds_ok {s s' : FundsState Acc} {reward used : Int}
    (h : (payRewardFunds reward).run s = .ok used s') :
    ∃ fs, payRewardFundsLoop reward s.rewardFunds 0 = .ok (fs, used) ∧ s' = { s with rewardFunds := fs } := by
  unfold payRewardFunds at h
  obtain ⟨s₀, s₁, h₀, h₁⟩ := run_bind_eq_ok h
  cases h₀
  obtain ⟨⟨fs, u⟩, s₂, h₂, h₃⟩ := run_bind_eq_ok h₁
  obtain ⟨hloop, rfl⟩ := run_fromExcept_eq_ok h₂
  obtain ⟨⟨⟩, s₄, h₄, h₅⟩ := run_bind_eq_ok h₃
  cases h₄
  cases h₅
  exact ⟨fs, hloop, rfl⟩

def fundsSample : FundsState (Fin 2) where
  chain :=
    { hardfork := 26, headBlockTime := 0, headBlockIdWord := 0, hbdInterestRate := 0, currentHbdSupply := 1000,
      balance := fun _ => 0, hbdBalance := fun a => if a = 1 then 1000 else 0, hbdSeconds := fun _ => 0,
      hbdSecondsLastUpdate := fun _ => 0, hbdLastInterestPayment := fun _ => 0, orders := [], nextId := 0 }
  vesting :=
    { routing := ⟨26, 1, [], fun _ => 0⟩, accounts := [0, 1],
      account := fun _ => ⟨0, 0, 0, 0, 0, 0, 0, 0, 0, timePointSecMaximum⟩,
      globals := ⟨0, 1000000000, 2000000000000, 0, 0⟩ }
  rewardFunds := [⟨10000, 0⟩]
  headBlockNum := 80000000
  currentWitness := 0
  schedule := fun _ => .elected
  electedWeight := 1
  timeshareWeight := 5
  minerWeight := 1
  witnessPayNormalizationFactor := 25
  virtualSupply := 400000000000
  currentSupply := 390000000000
  totalRewardFundHive := 0
  dhfIntervalLedger := 0
  contentRewardPercent := 6500
  vestingRewardPercent := 1500
  proposalFundPercent := 1000
  currentMedianHistory := ⟨⟨1, .hbd⟩, ⟨4, .hive⟩⟩
  treasury := 1

/-- `pay_reward_funds` never trips its sanity check: for a `reward` that fits, while the percents
of the reward funds add up to at most `HIVE_100_PERCENT` and their amounts fit, it returns what it
paid, each fund has got its percent of `reward` rounded down, and all it paid is at most
`reward`. -/
theorem pay_reward_funds_within_reward (s : FundsState Acc) {reward : Int} (hr : 0 ≤ reward)
    (hr' : reward ≤ int64Max) (hpercent : (s.rewardFunds.map RewardFund.percentContentRewards).sum ≤ hive100Percent)
    (hfit : ∀ f ∈ s.rewardFunds, reward * f.percentContentRewards ≤ int64Max ∧ 0 ≤ f.rewardBalance ∧
      f.rewardBalance + RewardFund.share reward f ≤ int64Max) :
    (payRewardFunds reward).run s =
        .ok (s.rewardFunds.map (RewardFund.share reward)).sum
          { s with rewardFunds := s.rewardFunds.map (RewardFund.credit reward) } ∧
      (s.rewardFunds.map (RewardFund.share reward)).sum ≤ reward := by
  have hle := sum_share_le hr s.rewardFunds hpercent
  have hloop := payRewardFundsLoop_run hr hr' s.rewardFunds 0 (Int.le_refl 0) (by omega) hfit
  rw [Int.zero_add] at hloop
  refine ⟨?_, hle⟩
  unfold payRewardFunds
  rw [run_bind_ok (run_get s)]
  dsimp only
  rw [hloop]
  rfl

theorem pay_reward_funds_within_reward_sample :
    (payRewardFunds 1000).run fundsSample =
        .ok (fundsSample.rewardFunds.map (RewardFund.share 1000)).sum
          { fundsSample with rewardFunds := fundsSample.rewardFunds.map (RewardFund.credit 1000) } ∧
      (fundsSample.rewardFunds.map (RewardFund.share 1000)).sum ≤ 1000 :=
  pay_reward_funds_within_reward fundsSample (by decide) (by decide) (by decide) (by decide)

/-! ## `process_funds` -/

section Books

variable {s s' : FundsState Acc}

theorem run_contentReward_ok {content content' : Int}
    (h : (if s.hasHardfork 17 then payRewardFunds content else pure content : FundsM Acc Int).run s =
      .ok content' s') :
    ∃ fs, s' = { s with rewardFunds := fs } ∧
      rewardFundsTotal fs = rewardFundsTotal s.rewardFunds + if s.hasHardfork 17 then content' else 0 := by
  split at h
  · rename_i h17
    obtain ⟨fs, hloop, rfl⟩ := run_payRewardFunds_ok h
    refine ⟨fs, rfl, ?_⟩
    rw [payRewardFundsLoop_total hloop, if_pos h17, Int.sub_zero]
  · rename_i h17
    cases h
    exact ⟨s.rewardFunds, rfl, by rw [if_neg h17, Int.add_zero]⟩

variable [LinearOrder Acc]

theorem run_newHbd_ok [Fintype Acc] {dhfNewFunds : Int} {price : Price} {treasury : Acc} {newHbd : Asset}
    (h : (if dhfNewFunds ≠ 0 then do
        let newHbd ← fromExcept (Asset.mulPrice ⟨dhfNewFunds, .hive⟩ price)
        fundsOnChain (adjustBalance treasury newHbd)
        pure newHbd
      else pure ⟨0, .hbd⟩ : FundsM Acc Asset).run s = .ok newHbd s') :
    ∃ c, s' = { s with chain := c } ∧ c.hardfork = s.chain.hardfork ∧
      ledger c .hbd = ledger s.chain .hbd + (if newHbd.symbol = .hbd then newHbd.amount else 0) ∧
      (25 ≤ s.chain.hardfork → c.currentHbdSupply = s.chain.currentHbdSupply) := by
  split at h
  · obtain ⟨hbd, -, h⟩ := run_fromExcept_bind_eq_ok h
    obtain ⟨⟨⟩, s₁, h₁, h₂⟩ := run_bind_eq_ok h
    cases h₂
    obtain ⟨c, hc, rfl⟩ := run_focus_eq_ok h₁
    obtain ⟨-, rfl⟩ := adjustBalance_ok hc
    exact ⟨_, rfl, creditBalance_hardfork _ _ _, ledger_creditBalance _ _ _ _,
      fun hf => creditBalance_supply_of_hf25 _ _ _ hf⟩
  · cases h
    exact ⟨s.chain, rfl, rfl, by simp, fun _ => rfl⟩

omit [LinearOrder Acc] in
theorem creditGlobals_ok {contentReward vestingReward newHive dhfNewFunds : Int} {newHbd : Asset}
    (h : creditGlobals s contentReward vestingReward newHive dhfNewFunds newHbd = .ok s') :
    newHbd.symbol = .hbd ∧ s'.rewardFunds = s.rewardFunds ∧ s'.vesting.account = s.vesting.account ∧
      s'.vesting.globals.totalVestingFundHive = s.vesting.globals.totalVestingFundHive + vestingReward ∧
      s'.vesting.globals.totalVestingShares = s.vesting.globals.totalVestingShares ∧
      s'.totalRewardFundHive + (if s.hasHardfork 17 then contentReward else 0) =
        s.totalRewardFundHive + contentReward ∧
      s'.currentSupply = s.currentSupply + newHive ∧
      s'.chain = { s.chain with currentHbdSupply := s.chain.currentHbdSupply + newHbd.amount } ∧
      s'.dhfIntervalLedger = s.dhfIntervalLedger + newHbd.amount := by
  unfold creditGlobals at h
  obtain ⟨fund, hfund, h⟩ := except_bind_eq_ok h
  obtain ⟨trf, htrf, h⟩ := except_bind_eq_ok h
  obtain ⟨supply, hsupply, h⟩ := except_bind_eq_ok h
  obtain ⟨hbdSupply, hhbd, h⟩ := except_bind_eq_ok h
  obtain ⟨lift, -, h⟩ := except_bind_eq_ok h
  obtain ⟨virtualSupply, -, h⟩ := except_bind_eq_ok h
  obtain ⟨ledger', hledger, h⟩ := except_bind_eq_ok h
  cases h
  obtain ⟨hsym, rfl⟩ := addAsset_ok hhbd
  refine ⟨hsym, rfl, rfl, ShareType.add_eq_ok hfund, rfl, ?_, ShareType.add_eq_ok hsupply, rfl,
    (addAsset_ok hledger).2⟩
  -- before `HIVE_HARDFORK_0_17__774` the content part is booked in `total_reward_fund_hive`
  split at htrf
  · rename_i h17
    cases htrf
    rw [if_pos h17]
  · rename_i h17
    rw [ShareType.add_eq_ok htrf, if_neg h17, Int.add_zero]

theorem run_producerVests_ok {w : Acc} {liquid n : Int}
    (h : (fundsOnVesting (Vesting.adjustAccountVestingBalance w liquid false)).run s = .ok n s') :
    s'.chain = s.chain ∧ s'.rewardFunds = s.rewardFunds ∧ s'.currentSupply = s.currentSupply ∧
      s'.totalRewardFundHive = s.totalRewardFundHive ∧ s'.dhfIntervalLedger = s.dhfIntervalLedger ∧
      s'.vesting.globals.totalVestingFundHive = s.vesting.globals.totalVestingFundHive + liquid ∧
      s'.vesting.globals.totalVestingShares = s.vesting.globals.totalVestingShares + n ∧
      (s'.vesting.account w).vestingShares = (s.vesting.account w).vestingShares + n := by
  obtain ⟨v, hv, rfl⟩ := run_focus_eq_ok h
  obtain ⟨-, hadd, hacc⟩ := Vesting.adjustAccountVestingBalance_ok hv
  obtain ⟨hfund, hshares⟩ := SharePool.Pool.mk.inj (VestingGlobals.addVesting_ok hadd)
  exact ⟨rfl, rfl, rfl, rfl, rfl, hfund, hshares, hacc⟩

omit [LinearOrder Acc] in
theorem ledger_currentHbdSupply [Fintype Acc] (c : MarketState Acc) (supply : Int) :
    ledger { c with currentHbdSupply := supply } .hbd = ledger c .hbd + c.currentHbdSupply - supply := by
  simp only [ledger, MarketState.getBalance, if_true]
  omega

/-- `process_funds` books every coin it mints. When it returns, the HIVE added to
`current_supply` is exactly what the reward funds, `total_reward_fund_hive` and the vesting fund
gained; the HBD added to `current_hbd_supply` is all in balances (the treasury's, with its
interest before `HIVE_HARDFORK_1_25`), and from `HIVE_HARDFORK_1_25` it is exactly what
`dhf_interval_ledger` gained; and the VESTS added to `total_vesting_shares` are all the
producer's. -/
theorem process_funds_books_minted_supply [Fintype Acc] (h : processFunds.run s = .ok () s') :
    s'.currentSupply - s.currentSupply =
        (rewardFundsTotal s'.rewardFunds - rewardFundsTotal s.rewardFunds) +
          (s'.totalRewardFundHive - s.totalRewardFundHive) +
          (s'.vesting.globals.totalVestingFundHive - s.vesting.globals.totalVestingFundHive) ∧
      ledger s'.chain .hbd = ledger s.chain .hbd ∧
      (25 ≤ s.chain.hardfork →
        s'.chain.currentHbdSupply - s.chain.currentHbdSupply = s'.dhfIntervalLedger - s.dhfIntervalLedger) ∧
      (s'.vesting.account s.currentWitness).vestingShares - (s.vesting.account s.currentWitness).vestingShares =
        s'.vesting.globals.totalVestingShares - s.vesting.globals.totalVestingShares := by
  unfold processFunds at h
  obtain ⟨_, _, h₀, h⟩ := run_bind_eq_ok h
  cases h₀
  obtain ⟨newHive, -, h⟩ := run_fromExcept_bind_eq_ok h
  obtain ⟨content, -, h⟩ := run_fromExcept_bind_eq_ok h
  obtain ⟨content', _, hcontent, h⟩ := run_bind_eq_ok h
  obtain ⟨fs, rfl, hfs⟩ := run_contentReward_ok hcontent
  obtain ⟨vesting, -, h⟩ := run_fromExcept_bind_eq_ok h
  obtain ⟨dhf, -, h⟩ := run_fromExcept_bind_eq_ok h
  obtain ⟨w₁, -, h⟩ := run_fromExcept_bind_eq_ok h
  obtain ⟨w₂, -, h⟩ := run_fromExcept_bind_eq_ok h
  obtain ⟨w₃, s₃, hweight, h⟩ := run_bind_eq_ok h
  have hs₃ : s₃ = { s with rewardFunds := fs } := by
    split at hweight
    · exact (run_fromExcept_eq_ok hweight).2
    · cases hweight
      rfl
  subst hs₃
  obtain ⟨witness, -, h⟩ := run_fromExcept_bind_eq_ok h
  obtain ⟨newHbd, _, hhbd, h⟩ := run_bind_eq_ok h
  obtain ⟨c, rfl, hhf, hledger, hsupply⟩ := run_newHbd_ok hhbd
  obtain ⟨newHive', hnew, h⟩ := run_fromExcept_bind_eq_ok h
  obtain ⟨_, _, h₅, h⟩ := run_bind_eq_ok h
  cases h₅
  obtain ⟨g, hg, h⟩ := run_fromExcept_bind_eq_ok h
  obtain ⟨⟨⟩, _, h₆, h⟩ := run_bind_eq_ok h
  cases h₆
  obtain ⟨hsym, hrf, hacc, hfund, hshares, htrf, hcs, hchain, hdhf⟩ := creditGlobals_ok hg
  obtain ⟨n, _, h₇, h⟩ := run_bind_eq_ok h
  cases h
  obtain ⟨hchain', hrf', hcs', htrf', hdhf', hfund', hshares', hacc'⟩ := run_producerVests_ok h₇
  obtain ⟨x, hx, hnew⟩ := except_bind_eq_ok hnew
  have h17 : ({ { s with rewardFunds := fs } with chain := c } : FundsState Acc).hasHardfork 17 = s.hasHardfork 17 := by
    simp only [FundsState.hasHardfork, MarketState.hasHardfork, hhf]
  rw [h17] at htrf
  dsimp only at hledger hsupply hacc hshares hfund hrf htrf hcs hchain hdhf
  refine ⟨?_, ?_, fun hf => ?_, ?_⟩
  · -- HIVE: the content part to the funds or to `total_reward_fund_hive`, the rest vested
    rw [hcs', hcs, ShareType.add_eq_ok hnew, ShareType.add_eq_ok hx, hrf', hrf, htrf', hfund', hfund]
    split_ifs at hfs htrf <;> omega
  · -- HBD: credited to the treasury, then added to the supply
    rw [hchain', hchain, ledger_currentHbdSupply, hledger, if_pos hsym]
    omega
  · rw [hchain', hchain, hdhf', hdhf]
    dsimp only
    rw [hsupply hf]
    omega
  · rw [hacc', hshares', hacc, hshares]
    omega

end Books

theorem process_funds_books_minted_supply_sample :
    ∃ s', processFunds.run fundsSample = .ok () s' ∧
      s'.currentSupply - fundsSample.currentSupply =
          (rewardFundsTotal s'.rewardFunds - rewardFundsTotal fundsSample.rewardFunds) +
            (s'.totalRewardFundHive - fundsSample.totalRewardFundHive) +
            (s'.vesting.globals.totalVestingFundHive - fundsSample.vesting.globals.totalVestingFundHive) ∧
        ledger s'.chain .hbd = ledger fundsSample.chain .hbd ∧
        (25 ≤ fundsSample.chain.hardfork →
          s'.chain.currentHbdSupply - fundsSample.chain.currentHbdSupply =
            s'.dhfIntervalLedger - fundsSample.dhfIntervalLedger) ∧
        (s'.vesting.account fundsSample.currentWitness).vestingShares -
            (fundsSample.vesting.account fundsSample.currentWitness).vestingShares =
          s'.vesting.globals.totalVestingShares - fundsSample.vesting.globals.totalVestingShares := by
  obtain ⟨s', h⟩ : ∃ s', processFunds.run fundsSample = .ok () s' := ⟨_, rfl⟩
  exact ⟨s', h, process_funds_books_minted_supply h⟩

end Chain
end HiveChain
