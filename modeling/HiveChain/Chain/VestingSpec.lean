import Mathlib.Order.Fin.Basic
import HiveChain.Lib.SharePool
import HiveChain.Chain.Vesting

/-!
# HiveChain.Chain.VestingSpec

The vesting pool, `total_vesting_fund_hive` HIVE backing `total_vesting_shares` VESTS, as a
`SharePool`: while the amounts fit in `int64_t`, a deposit of `adjust_account_vesting_balance`
mints the VESTS the price buys rounded down, and each conversion of
`process_vesting_withdrawals` pays the HIVE the price gives rounded down, at the totals of the
moment. So the HIVE value of a VEST never falls along them.
-/

namespace HiveChain
namespace Chain

open EState SharePool

/-! ## `share_type` and `operator*` -/

namespace ShareType

theorem add_eq_ok {a b c : Int} (h : add a b = .ok c) : c = a + b := by
  unfold add at h
  split at h
  · cases h
  · split at h
    · cases h
    · cases h
      rfl

theorem add_of_le {a b : Int} (hlo : int64Min ≤ a + b) (hhi : a + b ≤ int64Max) :
    add a b = .ok (a + b) := by
  unfold add
  unfold int64Max int64Min at *
  rw [if_neg (by omega), if_neg (by omega)]

theorem sub_eq_ok {a b c : Int} (h : sub a b = .ok c) : c = a - b := by
  unfold sub at h
  split at h
  · cases h
  · split at h
    · cases h
    · cases h
      rfl

theorem sub_of_le {a b : Int} (hlo : int64Min ≤ a - b) (hhi : a - b ≤ int64Max) :
    sub a b = .ok (a - b) := by
  unfold sub
  unfold int64Max int64Min at *
  rw [if_neg (by omega), if_neg (by omega)]

end ShareType

theorem uint128_natCast {n : Nat} (h : n < 2 ^ 128) : uint128 (n : Int) = n := by
  unfold uint128
  rw [Int.emod_eq_of_lt (Int.natCast_nonneg n) (by exact_mod_cast h)]
  rfl

theorem mulPriceAmount_of_le {amount num den : Int} (ha : 0 ≤ amount) (ha' : amount ≤ int64Max)
    (hn : 0 ≤ num) (hn' : num ≤ int64Max) (hd : 0 ≤ den) (hd' : den ≤ int64Max)
    (hq : amount * num / den ≤ int64Max) :
    mulPriceAmount amount num den = .ok (amount * num / den) := by
  obtain ⟨A, rfl⟩ := Int.eq_ofNat_of_zero_le ha
  obtain ⟨N, rfl⟩ := Int.eq_ofNat_of_zero_le hn
  obtain ⟨D, rfl⟩ := Int.eq_ofNat_of_zero_le hd
  unfold int64Max at ha' hn' hd' hq
  have hprod : A * N < 2 ^ 128 :=
    calc A * N < 2 ^ 63 * 2 ^ 63 := Nat.mul_lt_mul'' (by omega) (by omega)
      _ ≤ 2 ^ 128 := by rw [← Nat.pow_add]; exact Nat.pow_le_pow_right (by omega) (by omega)
  rw [← Int.natCast_mul, ← Int.natCast_div] at hq ⊢
  have hr : A * N / D ≤ 2 ^ 64 - 1 := by omega
  unfold mulPriceAmount
  rw [uint128_natCast (by omega), uint128_natCast (by omega), Int.natAbs_natCast,
    Nat.mod_eq_of_lt hprod]
  unfold uint128ToUint64
  dsimp only
  rw [if_pos hr]
  show Except.ok (int64OfUint64 (if ((A : Int)) < 0 then _ else _)) = _
  rw [if_neg (by omega)]
  unfold int64OfUint64
  have hnn : (0 : Int) ≤ ((A * N / D : Nat) : Int) := Int.natCast_nonneg _
  have hlt : ((A * N / D : Nat) : Int) ≤ 2 ^ 63 - 1 := by omega
  rw [Int.bmod_eq_of_le (by omega) (by omega)]

/-! ## The price of the pool -/

namespace VestingGlobals

/-- The pool as a `SharePool`: HIVE backing VESTS. -/
def pool (g : VestingGlobals) : Pool := ⟨g.totalVestingFundHive, g.totalVestingShares⟩

theorem getVestingSharePrice_of_pos {g : VestingGlobals} (hf : 0 < g.totalVestingFundHive)
    (hs : 0 < g.totalVestingShares) :
    g.getVestingSharePrice = ⟨g.totalVestingShares, g.totalVestingFundHive⟩ := by
  unfold getVestingSharePrice
  rw [if_neg (by omega)]

theorem hiveToVests_of_pos {g : VestingGlobals} (hf : 0 < g.totalVestingFundHive)
    (hs : 0 < g.totalVestingShares) (hf' : g.totalVestingFundHive ≤ int64Max)
    (hs' : g.totalVestingShares ≤ int64Max) {L : Int} (hL : 0 ≤ L) (hL' : L ≤ int64Max)
    (hq : L * g.totalVestingShares / g.totalVestingFundHive ≤ int64Max) :
    g.getVestingSharePrice.hiveToVests L =
      .ok (L * g.totalVestingShares / g.totalVestingFundHive) := by
  rw [getVestingSharePrice_of_pos hf hs]
  exact mulPriceAmount_of_le hL hL' hs.le hs' hf.le hf' hq

theorem vestsToHive_of_lt {g : VestingGlobals} (hf : 0 < g.totalVestingFundHive)
    (hs : 0 < g.totalVestingShares) (hf' : g.totalVestingFundHive ≤ int64Max)
    (hs' : g.totalVestingShares ≤ int64Max) {v : Int} (hv : 0 ≤ v) (hvs : v < g.totalVestingShares) :
    g.getVestingSharePrice.vestsToHive v =
      .ok (v * g.totalVestingFundHive / g.totalVestingShares) := by
  rw [getVestingSharePrice_of_pos hf hs]
  have hlt : v * g.totalVestingFundHive / g.totalVestingShares < g.totalVestingFundHive :=
    Int.ediv_lt_of_lt_mul hs (by
      rw [Int.mul_comm g.totalVestingFundHive]; exact Int.mul_lt_mul_of_pos_right hvs hf)
  show mulPriceAmount v g.totalVestingFundHive g.totalVestingShares = _
  exact mulPriceAmount_of_le hv (by omega) hf.le hf' hs.le hs' (by omega)

theorem addVesting_ok {g g' : VestingGlobals} {liquid newVesting : Int}
    (h : g.addVesting liquid newVesting false = .ok g') :
    g'.pool = ⟨g.totalVestingFundHive + liquid, g.totalVestingShares + newVesting⟩ := by
  unfold addVesting at h
  obtain ⟨hive, hhive, h⟩ := except_bind_eq_ok h
  obtain ⟨shares, hshares, h⟩ := except_bind_eq_ok h
  cases h
  rw [ShareType.add_eq_ok hhive, ShareType.add_eq_ok hshares]
  rfl

theorem addVesting_run {g : VestingGlobals} {liquid newVesting : Int}
    (hf : 0 ≤ g.totalVestingFundHive + liquid) (hf' : g.totalVestingFundHive + liquid ≤ int64Max)
    (hs : 0 ≤ g.totalVestingShares + newVesting) (hs' : g.totalVestingShares + newVesting ≤ int64Max) :
    g.addVesting liquid newVesting false = .ok { g with
      totalVestingFundHive := g.totalVestingFundHive + liquid
      totalVestingShares := g.totalVestingShares + newVesting } := by
  unfold addVesting
  rw [ShareType.add_of_le (by unfold int64Min; omega) hf',
    ShareType.add_of_le (by unfold int64Min; omega) hs']
  rfl

theorem removeVesting_ok {g g' : VestingGlobals} {hive vests : Int}
    (h : g.removeVesting hive vests = .ok g') :
    g'.pool = ⟨g.totalVestingFundHive - hive, g.totalVestingShares - vests⟩ := by
  unfold removeVesting at h
  obtain ⟨fund, hfund, h⟩ := except_bind_eq_ok h
  obtain ⟨shares, hshares, h⟩ := except_bind_eq_ok h
  cases h
  rw [ShareType.sub_eq_ok hfund, ShareType.sub_eq_ok hshares]
  rfl

end VestingGlobals

/-- The pool holds HIVE and VESTS, inside `int64_t`. -/
def VestingGlobals.Funded (g : VestingGlobals) : Prop :=
  0 < g.totalVestingFundHive ∧ 0 < g.totalVestingShares ∧ g.totalVestingFundHive ≤ int64Max ∧
    g.totalVestingShares ≤ int64Max

instance (g : VestingGlobals) : Decidable g.Funded :=
  inferInstanceAs (Decidable (_ ∧ _ ∧ _ ∧ _))

/-- A conversion out of the pool at the price of the moment: `vests` VESTS taken out, the HIVE
the price gives for them paid. -/
def ConvertMove (g g' : VestingGlobals) : Prop :=
  ∃ vests hive, g.getVestingSharePrice.vestsToHive vests = .ok hive ∧
    g.removeVesting hive vests = .ok g'

/-- A deposit into a funded pool that mints less than `2 ^ 63` VESTS, or a conversion out of it of
fewer VESTS than it holds, each priced at the totals of the moment. -/
inductive VestsMove : VestingGlobals → VestingGlobals → Prop
  | deposit {g g' : VestingGlobals} {liquid newVesting : Int} : g.Funded → 0 ≤ liquid →
      liquid ≤ int64Max → liquid * g.totalVestingShares / g.totalVestingFundHive ≤ int64Max →
      g.getVestingSharePrice.hiveToVests liquid = .ok newVesting →
      g.addVesting liquid newVesting false = .ok g' → VestsMove g g'
  | convert {g g' : VestingGlobals} {vests hive : Int} : g.Funded → 0 < vests →
      vests < g.totalVestingShares → g.getVestingSharePrice.vestsToHive vests = .ok hive →
      g.removeVesting hive vests = .ok g' → VestsMove g g'

theorem VestsMove.step {g g' : VestingGlobals} (h : VestsMove g g') : Step g.pool g'.pool := by
  cases h with
  | deposit hg hL hL' hq hprice hadd =>
    obtain ⟨hf, hs, hf', hs'⟩ := hg
    rw [VestingGlobals.hiveToVests_of_pos hf hs hf' hs' hL hL' hq] at hprice
    cases hprice
    rw [VestingGlobals.addVesting_ok hadd]
    exact Step.deposit hf hs hL
  | convert hg hv hvs hprice hremove =>
    obtain ⟨hf, hs, hf', hs'⟩ := hg
    rw [VestingGlobals.vestsToHive_of_lt hf hs hf' hs' hv.le hvs] at hprice
    cases hprice
    rw [VestingGlobals.removeVesting_ok hremove]
    exact Step.redeem hf hs hv.le hvs

theorem VestsMove.run_step {g g' : VestingGlobals} (h : Relation.ReflTransGen VestsMove g g') :
    Relation.ReflTransGen Step g.pool g'.pool :=
  Relation.ReflTransGen.lift VestingGlobals.pool (fun _ _ hm => VestsMove.step hm) _ _ h

/-! ## The functions of the state -/

variable {Acc : Type} [LinearOrder Acc] {s s' : VestingState Acc}

namespace Vesting

theorem modifyAccount_ok {a : Acc} {f : VestingAccount → Except String VestingAccount} {u : Unit}
    (h : (modifyAccount a f).run s = .ok u s') :
    ∃ acc, f (s.account a) = .ok acc ∧ s' = { s with account := Function.update s.account a acc } := by
  obtain ⟨s₀, s₁, h₀, h₁⟩ := run_bind_eq_ok h
  cases h₀
  obtain ⟨acc, s₂, h₂, h₃⟩ := run_bind_eq_ok h₁
  obtain ⟨hacc, rfl⟩ := run_fromExcept_eq_ok h₂
  cases h₃
  exact ⟨acc, hacc, rfl⟩

omit [LinearOrder Acc] in
theorem modifyGlobals_ok {f : VestingGlobals → Except String VestingGlobals} {u : Unit}
    (h : (modifyGlobals f : VestingM Acc Unit).run s = .ok u s') :
    ∃ g, f s.globals = .ok g ∧ s' = { s with globals := g } := by
  obtain ⟨s₀, s₁, h₀, h₁⟩ := run_bind_eq_ok h
  cases h₀
  obtain ⟨g, s₂, h₂, h₃⟩ := run_bind_eq_ok h₁
  obtain ⟨hg, rfl⟩ := run_fromExcept_eq_ok h₂
  cases h₃
  exact ⟨g, hg, rfl⟩

theorem modifyAccount_run {a : Acc} {f : VestingAccount → Except String VestingAccount}
    {acc : VestingAccount} (h : f (s.account a) = .ok acc) :
    (modifyAccount a f).run s = .ok () { s with account := Function.update s.account a acc } := by
  unfold modifyAccount
  rw [run_bind_ok (run_get s), run_bind_ok (show (fromExcept (f (s.account a))).run s = .ok acc s by
    rw [h]; rfl)]
  rfl

omit [LinearOrder Acc] in
theorem modifyGlobals_run {f : VestingGlobals → Except String VestingGlobals} {g : VestingGlobals}
    (h : f s.globals = .ok g) :
    (modifyGlobals f : VestingM Acc Unit).run s = .ok () { s with globals := g } := by
  unfold modifyGlobals
  rw [run_bind_ok (run_get s), run_bind_ok (show (fromExcept (f s.globals)).run s = .ok g s by
    rw [h]; rfl)]
  rfl

/-! ### A deposit -/

theorem modifyBalance_vests_ok {a : Acc} {delta : Int} {checkBalance : Bool} {u : Unit}
    (h : (modifyBalance a .vests delta checkBalance).run s = .ok u s') :
    s'.globals = s.globals ∧ (s'.account a).vestingShares = (s.account a).vestingShares + delta := by
  obtain ⟨acc, hacc, rfl⟩ := modifyAccount_ok h
  obtain ⟨v, hv, hacc⟩ := except_bind_eq_ok hacc
  dsimp only at hacc
  split at hacc
  · cases hacc
  · cases hacc
    refine ⟨rfl, ?_⟩
    show (Function.update s.account a _ a).vestingShares = _
    rw [Function.update_self]
    exact ShareType.add_eq_ok hv

theorem modifyBalance_vests_run {a : Acc} {delta : Int} (checkBalance : Bool)
    (hlo : 0 ≤ (s.account a).vestingShares + delta)
    (hhi : (s.account a).vestingShares + delta ≤ int64Max) :
    ∃ s', (modifyBalance a .vests delta checkBalance).run s = .ok () s' ∧ s'.globals = s.globals := by
  have hadd := ShareType.add_of_le (by unfold int64Min; omega) hhi
  let acc : VestingAccount :=
    { s.account a with vestingShares := (s.account a).vestingShares + delta }
  have hrun : (modifyBalance a .vests delta checkBalance).run s =
      .ok () { s with account := Function.update s.account a acc } := by
    apply modifyAccount_run
    show (do
      let vestingShares ← ShareType.add (s.account a).vestingShares delta
      if checkBalance ∧ vestingShares < 0 then throw "Insufficient VESTS funds"
      pure { s.account a with vestingShares }) = _
    rw [hadd]
    show (if checkBalance = true ∧ (s.account a).vestingShares + delta < 0 then _ else _) = _
    rw [if_neg (by omega)]
    rfl
  exact ⟨_, hrun, rfl⟩

theorem adjustBalance_of_nonneg {a : Acc} {symbol : VestingSymbol} {delta : Int} (hd : 0 ≤ delta) :
    (adjustBalance a symbol delta).run s =
      (modifyBalance a symbol delta (decide (20 ≤ s.routing.hardfork))).run s := by
  unfold adjustBalance
  rw [run_bind_ok (run_get s)]
  dsimp only
  rw [if_neg (by omega)]

theorem adjustBalance_vests_ok {a : Acc} {delta : Int} {u : Unit}
    (h : (adjustBalance a .vests delta).run s = .ok u s') :
    s'.globals = s.globals ∧ (s'.account a).vestingShares = (s.account a).vestingShares + delta := by
  obtain ⟨s₀, s₁, h₀, h₁⟩ := run_bind_eq_ok h
  cases h₀
  dsimp only at h₁
  split at h₁
  · -- a debit first checks the balance, without a change
    obtain ⟨required, s₂, h₂, h₃⟩ := run_bind_eq_ok h₁
    obtain ⟨-, rfl⟩ := run_fromExcept_eq_ok h₂
    obtain ⟨-, h₄⟩ := run_throw_if_eq_ok h₃
    exact modifyBalance_vests_ok h₄
  · exact modifyBalance_vests_ok h₁

theorem adjustAccountVestingBalance_ok {a : Acc} {liquid n : Int}
    (h : (adjustAccountVestingBalance a liquid false).run s = .ok n s') :
    s.globals.getVestingSharePrice.hiveToVests liquid = .ok n ∧
      s.globals.addVesting liquid n false = .ok s'.globals ∧
      (s'.account a).vestingShares = (s.account a).vestingShares + n := by
  obtain ⟨s₀, s₁, h₀, h₁⟩ := run_bind_eq_ok h
  cases h₀
  obtain ⟨n', s₂, h₂, h₃⟩ := run_bind_eq_ok h₁
  obtain ⟨hcalc, rfl⟩ := run_fromExcept_eq_ok h₂
  obtain ⟨⟨⟩, s₄, h₄, h₅⟩ := run_bind_eq_ok h₃
  obtain ⟨hg, hv⟩ := adjustBalance_vests_ok h₄
  obtain ⟨⟨⟩, s₆, h₆, h₇⟩ := run_bind_eq_ok h₅
  obtain ⟨g, hgok, rfl⟩ := modifyGlobals_ok h₆
  cases h₇
  exact ⟨hcalc, by rw [← hg]; exact hgok, hv⟩

theorem adjustAccountVestingBalance_run {a : Acc} {liquid n : Int}
    (hprice : s.globals.getVestingSharePrice.hiveToVests liquid = .ok n) (hn : 0 ≤ n)
    (hv : 0 ≤ (s.account a).vestingShares) (hv' : (s.account a).vestingShares + n ≤ int64Max)
    (hf : 0 ≤ s.globals.totalVestingFundHive + liquid)
    (hf' : s.globals.totalVestingFundHive + liquid ≤ int64Max)
    (hs : 0 ≤ s.globals.totalVestingShares + n) (hs' : s.globals.totalVestingShares + n ≤ int64Max) :
    ∃ s', (adjustAccountVestingBalance a liquid false).run s = .ok n s' := by
  obtain ⟨s₁, h₁, hg⟩ := modifyBalance_vests_run (decide (20 ≤ s.routing.hardfork))
    (by omega) hv'
  have hcalc : (fromExcept (calculateVesting s.globals liquid false) : VestingM Acc Int).run s =
      .ok n s := by
    show (fromExcept (s.globals.getVestingSharePrice.hiveToVests liquid)).run s = _
    rw [hprice]
    rfl
  have hbal : (adjustBalance a .vests n).run s = .ok () s₁ := by
    rw [adjustBalance_of_nonneg hn]
    exact h₁
  unfold adjustAccountVestingBalance
  rw [run_bind_ok (run_get s), run_bind_ok hcalc]
  dsimp only
  rw [if_neg Bool.false_ne_true, run_bind_ok hbal,
    run_bind_ok (modifyGlobals_run (by rw [hg]; exact VestingGlobals.addVesting_run hf hf' hs hs'))]
  exact ⟨_, rfl⟩

/-! ### Every change of the pool in `process_vesting_withdrawals` is a conversion -/

theorem moves_modifyAccount (a : Acc) (f : VestingAccount → Except String VestingAccount) :
    Moves VestingState.globals ConvertMove (modifyAccount a f) :=
  Moves.of_eq fun _ _ _ h => by
    obtain ⟨_, _, rfl⟩ := modifyAccount_ok h
    rfl

theorem moves_payOut_bind {β : Type} (a : Acc) (f : Int → VestingAccount → Except String VestingAccount)
    (v : Int) (k : Unit → VestingM Acc β) (hk : ∀ u, Moves VestingState.globals ConvertMove (k u)) :
    Moves VestingState.globals ConvertMove (do
      let s ← get
      let hive ← fromExcept (s.globals.getVestingSharePrice.vestsToHive v)
      modifyAccount a (f hive)
      let u ← modifyGlobals fun g => g.removeVesting hive v
      k u) := by
  intro s b s' h
  obtain ⟨s₀, s₁, h₀, h₁⟩ := run_bind_eq_ok h
  cases h₀
  obtain ⟨hive, s₂, h₂, h₃⟩ := run_bind_eq_ok h₁
  obtain ⟨hprice, rfl⟩ := run_fromExcept_eq_ok h₂
  obtain ⟨⟨⟩, s₄, h₄, h₅⟩ := run_bind_eq_ok h₃
  obtain ⟨_, _, rfl⟩ := modifyAccount_ok h₄
  obtain ⟨⟨⟩, s₆, h₆, h₇⟩ := run_bind_eq_ok h₅
  obtain ⟨g, hg, rfl⟩ := modifyGlobals_ok h₆
  -- the pool the price was read from is the one the payment comes out of
  exact Relation.ReflTransGen.head ⟨v, hive, hprice, hg⟩ (hk () _ b s' h₇)

theorem moves_payOut (a : Acc) (f : Int → VestingAccount → Except String VestingAccount)
    (v : Int) :
    Moves VestingState.globals ConvertMove (do
      let s ← get
      let hive ← fromExcept (s.globals.getVestingSharePrice.vestsToHive v)
      modifyAccount a (f hive)
      modifyGlobals fun g => g.removeVesting hive v : VestingM Acc Unit) := by
  have h := moves_payOut_bind a f v pure fun _ => moves_pure _
  simpa only [bind_pure] using h

theorem moves_routeWithdrawal (toWithdraw : Int) (autoVestMode : Bool) (deposited : Int)
    (r : WithdrawRoute Acc) :
    Moves VestingState.globals ConvertMove (routeWithdrawal toWithdraw autoVestMode deposited r) := by
  unfold routeWithdrawal
  refine Moves.ite ?_ (moves_pure _)
  dsimp only
  refine (moves_fromExcept _).bind fun toDeposit => ?_
  refine (moves_fromExcept _).bind fun deposited => ?_
  refine Moves.ite (Moves.ite ?_ ?_) (moves_pure _)
  · exact (moves_modifyAccount _ _).bind fun _ => moves_pure _
  · exact moves_payOut_bind _ _ _ _ fun _ => moves_pure _

theorem moves_processRouting (fromAccount : Acc) (toWithdraw : Int) (autoVestMode : Bool)
    (deposited : Int) :
    Moves VestingState.globals ConvertMove
      (processRouting fromAccount toWithdraw autoVestMode deposited) :=
  moves_get.bind fun s =>
    Moves.foldlM (moves_routeWithdrawal toWithdraw autoVestMode) (s.routesOf fromAccount) deposited

theorem moves_processVestingWithdrawal (fromAccount : Acc) :
    Moves VestingState.globals ConvertMove (processVestingWithdrawal fromAccount) := by
  unfold processVestingWithdrawal
  refine moves_get.bind fun s => (moves_fromExcept _).bind fun toWithdraw => ?_
  refine (moves_processRouting _ _ _ _).bind fun deposited => ?_
  refine (moves_processRouting _ _ _ _).bind fun deposited => ?_
  refine (moves_fromExcept _).bind fun toConvert => ?_
  dsimp only
  exact Moves.ite ((moves_throw _).bind fun _ => moves_payOut _ _ _) (moves_payOut _ _ _)

theorem moves_processVestingWithdrawalsLoop (now : Nat) :
    ∀ (fuel : Nat) (current : Option Acc),
      Moves VestingState.globals ConvertMove (processVestingWithdrawalsLoop now fuel current)
  | 0, _ => moves_pure _
  | _ + 1, none => moves_pure _
  | fuel + 1, some a => by
    unfold processVestingWithdrawalsLoop
    refine moves_get.bind fun s => Moves.ite ?_ (moves_pure _)
    exact (moves_processVestingWithdrawal a).bind fun _ =>
      moves_processVestingWithdrawalsLoop now fuel _

theorem moves_processVestingWithdrawals :
    Moves VestingState.globals ConvertMove (processVestingWithdrawals : VestingM Acc Unit) :=
  moves_get.bind fun _ => moves_processVestingWithdrawalsLoop _ _ _

end Vesting

theorem VestingGlobals.convert_of_lt {g : VestingGlobals} (hg : g.Funded) {v : Int} (hv : 0 < v)
    (hvs : v < g.totalVestingShares) :
    ∃ g', g.removeVesting (v * g.totalVestingFundHive / g.totalVestingShares) v = .ok g' ∧
      VestsMove g g' := by
  obtain ⟨hf, hs, hf', hs'⟩ := hg
  have hprice := vestsToHive_of_lt hf hs hf' hs' hv.le hvs
  have hle : v * g.totalVestingFundHive / g.totalVestingShares ≤ g.totalVestingFundHive :=
    Int.ediv_le_of_le_mul hs (by
      rw [Int.mul_comm g.totalVestingFundHive]; exact Int.mul_le_mul_of_nonneg_right hvs.le hf.le)
  have hnn : 0 ≤ v * g.totalVestingFundHive / g.totalVestingShares :=
    Int.ediv_nonneg (Int.mul_nonneg hv.le hf.le) hs.le
  have hremove : g.removeVesting (v * g.totalVestingFundHive / g.totalVestingShares) v =
      .ok { g with
        totalVestingFundHive := g.totalVestingFundHive - v * g.totalVestingFundHive / g.totalVestingShares
        totalVestingShares := g.totalVestingShares - v } := by
    unfold removeVesting
    unfold int64Max at hf' hs'
    rw [ShareType.sub_of_le (by unfold int64Min; omega) (by unfold int64Max; omega),
      ShareType.sub_of_le (by unfold int64Min; omega) (by unfold int64Max; omega)]
    rfl
  exact ⟨_, hremove, .convert ⟨hf, hs, hf', hs'⟩ hv hvs hprice hremove⟩

/-- Deposits and withdrawals of vesting never lower the HIVE a VEST is worth, and a deposit in
range returns the VESTS the share price gives. -/
theorem vests_share_price_never_dilutes :
    (∀ (st st' : VestingState Acc) (a : Acc) (liquid n : Int), st.globals.Funded → 0 ≤ liquid →
      liquid ≤ int64Max →
      liquid * st.globals.totalVestingShares / st.globals.totalVestingFundHive ≤ int64Max →
      (Vesting.adjustAccountVestingBalance a liquid false).run st = .ok n st' →
      n = liquid * st.globals.totalVestingShares / st.globals.totalVestingFundHive ∧
      st'.globals.pool =
        ⟨st.globals.totalVestingFundHive + liquid, st.globals.totalVestingShares + n⟩ ∧
      (st'.account a).vestingShares = (st.account a).vestingShares + n ∧
      ValueLe st.globals.pool st'.globals.pool) ∧
    (∀ (st : VestingState Acc) (a : Acc) (liquid : Int), st.globals.Funded → 0 ≤ liquid →
      liquid ≤ int64Max →
      liquid * st.globals.totalVestingShares / st.globals.totalVestingFundHive ≤ int64Max →
      0 ≤ (st.account a).vestingShares →
      (st.account a).vestingShares +
        liquid * st.globals.totalVestingShares / st.globals.totalVestingFundHive ≤ int64Max →
      st.globals.totalVestingFundHive + liquid ≤ int64Max →
      st.globals.totalVestingShares +
        liquid * st.globals.totalVestingShares / st.globals.totalVestingFundHive ≤ int64Max →
      ∃ st', (Vesting.adjustAccountVestingBalance a liquid false).run st =
        .ok (liquid * st.globals.totalVestingShares / st.globals.totalVestingFundHive) st') ∧
    Moves VestingState.globals ConvertMove (Vesting.processVestingWithdrawals : VestingM Acc Unit) ∧
    (∀ (g : VestingGlobals) (vests : Int), g.Funded → 0 < vests → vests < g.totalVestingShares →
      g.getVestingSharePrice.vestsToHive vests =
        .ok (vests * g.totalVestingFundHive / g.totalVestingShares) ∧
      ∃ g', g.removeVesting (vests * g.totalVestingFundHive / g.totalVestingShares) vests = .ok g' ∧
        g'.pool = ⟨g.totalVestingFundHive - vests * g.totalVestingFundHive / g.totalVestingShares,
          g.totalVestingShares - vests⟩ ∧
        ValueLe g.pool g'.pool) ∧
    (∀ g g' : VestingGlobals, g.Funded → Relation.ReflTransGen VestsMove g g' →
      g.pool.value ≤ g'.pool.value ∧
      g'.totalVestingShares - g.totalVestingShares ≤
        (g'.totalVestingFundHive - g.totalVestingFundHive) * g.totalVestingShares /
          g.totalVestingFundHive ∧
      g.totalVestingFundHive - g'.totalVestingFundHive ≤
        (g.totalVestingShares - g'.totalVestingShares) * g.totalVestingFundHive /
          g.totalVestingShares) := by
  refine ⟨?deposit, ?returns, Vesting.moves_processVestingWithdrawals, ?convert, ?run⟩
  case deposit =>
    intro st st' a liquid n hg hL hL' hq h
    obtain ⟨hprice, hadd, hvest⟩ := Vesting.adjustAccountVestingBalance_ok h
    obtain ⟨hf, hs, hf', hs'⟩ := hg
    rw [VestingGlobals.hiveToVests_of_pos hf hs hf' hs' hL hL' hq] at hprice
    cases hprice
    have hmove : VestsMove st.globals st'.globals :=
      .deposit ⟨hf, hs, hf', hs'⟩ hL hL' hq
        (VestingGlobals.hiveToVests_of_pos hf hs hf' hs' hL hL' hq) hadd
    exact ⟨rfl, VestingGlobals.addVesting_ok hadd, hvest, hmove.step.valueLe⟩
  case returns =>
    intro st a liquid hg hL hL' hq hv hv' hf'' hs''
    obtain ⟨hf, hs, hf', hs'⟩ := hg
    have hn : 0 ≤ liquid * st.globals.totalVestingShares / st.globals.totalVestingFundHive :=
      Int.ediv_nonneg (Int.mul_nonneg hL hs.le) hf.le
    exact Vesting.adjustAccountVestingBalance_run
      (VestingGlobals.hiveToVests_of_pos hf hs hf' hs' hL hL' hq) hn hv hv' (by omega) hf''
      (by omega) hs''
  case convert =>
    intro g vests hg hv hvs
    obtain ⟨hf, hs, hf', hs'⟩ := hg
    obtain ⟨g', hremove, hmove⟩ := VestingGlobals.convert_of_lt ⟨hf, hs, hf', hs'⟩ hv hvs
    exact ⟨VestingGlobals.vestsToHive_of_lt hf hs hf' hs' hv.le hvs, g', hremove,
      VestingGlobals.removeVesting_ok hremove, hmove.step.valueLe⟩
  case run =>
    intro g g' hg hrun
    obtain ⟨hf, hs, -, -⟩ := hg
    -- the moves are steps of the share pool, whose value never falls
    obtain ⟨-, hs', hle⟩ := run_valueLe (VestsMove.run_step hrun) hf hs
    exact ⟨hle.value_le hs hs', hle.minted_le hf, hle.paid_le hs⟩

def vestingSample : VestingState (Fin 3) where
  routing := ⟨28, 2, [⟨0, 1, 5000, false⟩, ⟨0, 2, 2000, true⟩], fun _ => 0⟩
  accounts := [0, 1, 2]
  account _ := ⟨1000, 5000, 0, 0, 0, 0, 0, 0, 0, timePointSecMaximum⟩
  globals := ⟨0, 2000, 4000000, 0, 0⟩

theorem vests_share_price_never_dilutes_sample :
    ∃ st', (Vesting.adjustAccountVestingBalance (0 : Fin 3) 100 false).run vestingSample =
      .ok 200000 st' :=
  vests_share_price_never_dilutes.2.1 vestingSample 0 100 (by decide) (by decide) (by decide)
    (by decide) (by decide) (by decide) (by decide) (by decide)

def thinVestingState : VestingState (Fin 3) where
  routing := ⟨28, 2, [], fun _ => 0⟩
  accounts := [0, 1, 2]
  account a := ⟨1000, if a = 0 then 2 ^ 62 else 0, 0, 0, 0, 0, 0, 0, 0, timePointSecMaximum⟩
  globals := ⟨0, 1, 2 ^ 62, 0, 0⟩

/-- With one satoshi behind `2 ^ 62` VESTS a deposit of 4 overflows the 64-bit product and is
refused, while a deposit of 3 wraps to `-2 ^ 62` new VESTS: the transfer goes through, the account
pays 3 HIVE and its VESTS and the supply drop to nothing. -/
theorem deposit_breaks_int64_price :
    thinVestingState.globals.Funded ∧
      (Vesting.adjustAccountVestingBalance (0 : Fin 3) 4 false).run thinVestingState =
        .error "u <= std::numeric_limits<uint64_t>::max()" thinVestingState ∧
      (runVestingOps [.transferToVesting 0 none 3] thinVestingState).globals.totalVestingShares = 0 ∧
      ((runVestingOps [.transferToVesting 0 none 3] thinVestingState).account 0).vestingShares = 0 ∧
      ((runVestingOps [.transferToVesting 0 none 3] thinVestingState).account 0).balance = 997 :=
  ⟨by decide, rfl, by decide +kernel⟩

end Chain
end HiveChain
