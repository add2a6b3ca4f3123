import HiveChain.Chain.ResourceDynamics
import HiveChain.Chain.VestingSpec

/-!
# HiveChain.Chain.ResourceDynamicsSpec

`pool_eq` is the equilibrium of the resource dynamics. With the shift `HIVE_RD_DECAY_DENOM_SHIFT`
and a decay below `2 ^ 32` the decay of every `int64_t` pool is computed without overflow: it is
`min((decay * pool) >> 36, pool)`, negated for a negative pool. It covers a positive budget `b`
exactly when `b << 36 ≤ decay * pool`, so the least such pool is the ceiling that
`rd_setup_dynamics_params` computes, and its two assertions hold.
-/

namespace HiveChain
namespace Chain

/-! ## Machine words -/

theorem uint64_of_lt {a : Int} (ha : 0 ≤ a) (ha' : a < 2 ^ 64) : (uint64 a : Int) = a := by
  unfold uint64
  rw [Int.emod_eq_of_lt ha ha', Int.toNat_of_nonneg ha]

theorem int64OfUint64_of_lt {n : Nat} (h : n < 2 ^ 63) : int64OfUint64 n = n := by
  unfold int64OfUint64
  have hn : (n : Int) < 2 ^ 63 := by exact_mod_cast h
  rw [Int.bmod_eq_of_le (by omega) (by omega)]

/-! ## Decay -/

section Decay

variable {decay : Nat}

theorem rdComputePoolDecay_of_nonneg {pool : Int} (hd : decay ≤ hiveRdMaxDecay) (hp : 0 ≤ pool)
    (hp' : pool < 2 ^ 64) :
    rdComputePoolDecay ⟨decay, hiveRdDecayDenomShift⟩ pool 1 =
      .ok (min ((decay * pool.toNat / 2 ^ hiveRdDecayDenomShift : Nat) : Int) pool) := by
  obtain ⟨n, rfl⟩ := Int.eq_ofNat_of_zero_le hp
  have hn : uint64 n = n := by exact_mod_cast uint64_of_lt hp hp'
  have hn' : n < 2 ^ 64 := by exact_mod_cast hp'
  unfold hiveRdMaxDecay at hd
  unfold hiveRdDecayDenomShift
  have hprod : decay * n < 2 ^ 96 :=
    calc decay * n < 2 ^ 32 * 2 ^ 64 := Nat.mul_lt_mul'' (by omega) hn'
      _ = 2 ^ 96 := by norm_num
  have hres : decay * n / 2 ^ 36 < 2 ^ 60 := by omega
  rw [rdComputePoolDecay, if_neg (by omega)]
  simp only [hn, Nat.mul_one, Nat.mod_eq_of_lt (show decay < 2 ^ 64 by omega),
    Nat.mod_eq_of_lt (show decay * n < 2 ^ 128 by omega), Nat.shiftRight_eq_div_pow]
  unfold uint128ToUint64
  rw [if_pos (by omega)]
  show Except.ok (if _ then _ else _) = _
  rw [int64OfUint64_of_lt (by omega), Int.toNat_natCast]
  split
  · rw [min_eq_right (by omega)]
  · rw [min_eq_left (by omega)]

theorem rdComputePoolDecay_of_neg {dp : RdDecayParams} {pool : Int} {dt : Nat} (hp : pool < 0) :
    rdComputePoolDecay dp pool dt = (fun d => -d) <$> rdComputePoolDecay dp (-pool) dt := by
  rw [rdComputePoolDecay, if_pos hp]

theorem le_min_div_iff {b n : Nat} (hd : decay ≤ 2 ^ hiveRdDecayDenomShift) :
    b ≤ min (decay * n / 2 ^ hiveRdDecayDenomShift) n ↔ b * 2 ^ hiveRdDecayDenomShift ≤ decay * n := by
  have hpos : 0 < 2 ^ hiveRdDecayDenomShift := Nat.two_pow_pos _
  rw [le_min_iff, Nat.le_div_iff_mul_le hpos]
  constructor
  · exact fun h => h.1
  · intro h
    refine ⟨h, ?_⟩
    have hdn : decay * n ≤ 2 ^ hiveRdDecayDenomShift * n := Nat.mul_le_mul_right n hd
    exact Nat.le_of_mul_le_mul_right (by rw [Nat.mul_comm n]; omega) hpos

theorem uint128ToUint64_of_le {u : Nat} (h : u ≤ 2 ^ 64 - 1) : uint128ToUint64 u = pure u := by
  unfold uint128ToUint64
  rw [if_pos h]
  rfl

theorem checkPoolEq_of_lt {resourceUnit poolEq maxPoolSize pool : Nat} {budget minDecay : Int}
    (hd : decay ≤ hiveRdMaxDecay) (hb : 0 < budget) (hp : pool < 2 ^ 63) :
    checkPoolEq ⟨resourceUnit, budget, poolEq, maxPoolSize, ⟨decay, hiveRdDecayDenomShift⟩, minDecay⟩
        pool =
      pure (decide (budget.toNat * 2 ^ hiveRdDecayDenomShift ≤ decay * pool)) := by
  have hd' : decay ≤ 2 ^ hiveRdDecayDenomShift := by
    unfold hiveRdMaxDecay at hd
    unfold hiveRdDecayDenomShift
    omega
  unfold checkPoolEq
  rw [int64OfUint64_of_lt hp, rdComputePoolDecay_of_nonneg hd (by omega) (by omega),
    Int.toNat_natCast]
  obtain ⟨b, rfl⟩ := Int.eq_ofNat_of_zero_le hb.le
  show (pure (decide (min ((decay * pool / 2 ^ hiveRdDecayDenomShift : Nat) : Int) (pool : Int) ≥
    (b : Int))) : Except String Bool) = _
  rw [Int.toNat_natCast, ← Nat.cast_min]
  simp only [ge_iff_le, Nat.cast_le, le_min_div_iff hd']

end Decay

/-! ## The equilibrium -/

/-- The pool that the comment of `rd_setup_dynamics_params` derives, `ceil((b << s) / d)`. -/
def rdPoolEq (userParams : RdUserParams) : Nat :=
  (userParams.budgetPerTimeUnit.toNat * 2 ^ hiveRdDecayDenomShift +
    (userParams.decayPerTimeUnit - 1)) / userParams.decayPerTimeUnit

/-- The parameters `rd_validate_user_params` accepts. -/
def RdUserParams.Valid (userParams : RdUserParams) : Prop :=
  hiveRdMinBudget ≤ userParams.budgetPerTimeUnit ∧ userParams.budgetPerTimeUnit ≤ hiveRdMaxBudget ∧
    hiveRdMinDecay ≤ userParams.decayPerTimeUnit ∧ userParams.decayPerTimeUnit ≤ hiveRdMaxDecay

instance (userParams : RdUserParams) : Decidable userParams.Valid :=
  inferInstanceAs (Decidable (_ ∧ _))

theorem rdValidateUserParams_eq_ok {userParams : RdUserParams} :
    rdValidateUserParams userParams = .ok () ↔ userParams.Valid := by
  unfold rdValidateUserParams RdUserParams.Valid
  simp only [EState.except_ite_throw_bind_eq_ok, EState.except_ite_throw_eq_ok]

theorem ceil_div_le_iff {x d p : Nat} (hd : 0 < d) : (x + (d - 1)) / d ≤ p ↔ x ≤ d * p := by
  rw [Nat.div_le_iff_le_mul_add_pred hd]
  omega

namespace RdUserParams.Valid

variable {userParams : RdUserParams} (hv : userParams.Valid)
include hv

theorem bounds :
    0 < userParams.budgetPerTimeUnit ∧
      userParams.budgetPerTimeUnit.toNat * 2 ^ hiveRdDecayDenomShift ≤ 2 ^ 64 - 2 ^ 36 ∧
      64 ≤ userParams.decayPerTimeUnit ∧ userParams.decayPerTimeUnit ≤ 2 ^ 32 - 1 := by
  obtain ⟨h₁, h₂, h₃, h₄⟩ := hv
  unfold hiveRdMinBudget at h₁
  have hmax : hiveRdMaxBudget = 2 ^ 28 - 1 := by decide
  rw [hmax] at h₂
  unfold hiveRdMinDecay hiveRdMinDecayBits at h₃
  unfold hiveRdMaxDecay at h₄
  unfold hiveRdDecayDenomShift
  omega

theorem rdPoolEq_le_iff {p : Nat} :
    rdPoolEq userParams ≤ p ↔
      userParams.budgetPerTimeUnit.toNat * 2 ^ hiveRdDecayDenomShift ≤ userParams.decayPerTimeUnit * p :=
  ceil_div_le_iff (by have := hv.bounds; omega)

theorem rdPoolEq_bounds : 1 ≤ rdPoolEq userParams ∧ rdPoolEq userParams < 2 ^ 58 := by
  obtain ⟨hb, hb', hd, hd'⟩ := hv.bounds
  unfold rdPoolEq
  have hd₀ : 0 < userParams.decayPerTimeUnit := by omega
  constructor
  · rw [Nat.le_div_iff_mul_le hd₀]
    unfold hiveRdDecayDenomShift at hb' ⊢
    omega
  · rw [Nat.div_lt_iff_lt_mul hd₀]
    omega

theorem temp_eq :
    ((uint128 userParams.budgetPerTimeUnit <<< hiveRdDecayDenomShift) % 2 ^ 128 +
        (userParams.decayPerTimeUnit + (2 ^ 32 - 1)) % 2 ^ 32) % 2 ^ 128 /
      userParams.decayPerTimeUnit = rdPoolEq userParams := by
  obtain ⟨hb, hb', hd, hd'⟩ := hv.bounds
  obtain ⟨b, hbeq⟩ := Int.eq_ofNat_of_zero_le hb.le
  have hu : uint128 userParams.budgetPerTimeUnit = userParams.budgetPerTimeUnit.toNat := by
    rw [hbeq, Int.toNat_natCast]
    unfold hiveRdDecayDenomShift at hb'
    rw [hbeq, Int.toNat_natCast] at hb'
    exact uint128_natCast (by omega)
  unfold rdPoolEq
  rw [hu, Nat.shiftLeft_eq]
  unfold hiveRdDecayDenomShift at hb' ⊢
  generalize userParams.budgetPerTimeUnit.toNat = B at hb' ⊢
  generalize userParams.decayPerTimeUnit = d at hd hd' ⊢
  have hsum : (B * 2 ^ 36 % 2 ^ 128 + (d + (2 ^ 32 - 1)) % 2 ^ 32) % 2 ^ 128 =
      B * 2 ^ 36 + (d - 1) := by
    omega
  rw [hsum]

theorem rdSetupDynamicsParams_eq {systemParams : RdSystemParams} {dparamsOut : RdDynamicsParams}
    (hs : systemParams.decayPerTimeUnitDenomShift = hiveRdDecayDenomShift) :
    rdSetupDynamicsParams userParams systemParams dparamsOut =
      pure { dparamsOut with
        resourceUnit := systemParams.resourceUnit
        budgetPerTimeUnit := userParams.budgetPerTimeUnit
        poolEq := rdPoolEq userParams
        maxPoolSize := rdPoolEq userParams
        decayParams := ⟨userParams.decayPerTimeUnit, hiveRdDecayDenomShift⟩ } := by
  obtain ⟨hb, -, -, -⟩ := hv.bounds
  obtain ⟨hP₁, hP⟩ := hv.rdPoolEq_bounds
  have hdecay : userParams.decayPerTimeUnit ≤ hiveRdMaxDecay := hv.2.2.2
  have hshift : hiveRdDecayDenomShift % 2 ^ 8 = hiveRdDecayDenomShift := rfl
  have hbelow : (rdPoolEq userParams + (2 ^ 64 - 1)) % 2 ^ 64 = rdPoolEq userParams - 1 := by
    omega
  -- the decay covers the budget at `pool_eq` and not one below it
  have hcover := hv.rdPoolEq_le_iff.1 (le_refl (rdPoolEq userParams))
  have hnot : ¬userParams.budgetPerTimeUnit.toNat * 2 ^ hiveRdDecayDenomShift ≤
      userParams.decayPerTimeUnit * (rdPoolEq userParams - 1) := fun h => by
    have := hv.rdPoolEq_le_iff.2 h
    omega
  unfold rdSetupDynamicsParams
  rw [hs]
  dsimp only
  rw [hv.temp_eq]
  simp only [hshift, uint128ToUint64_of_le (show rdPoolEq userParams ≤ 2 ^ 64 - 1 by omega),
    pure_bind, checkPoolEq_of_lt hdecay hb (show rdPoolEq userParams < 2 ^ 63 by omega), hbelow,
    checkPoolEq_of_lt hdecay hb (show rdPoolEq userParams - 1 < 2 ^ 63 by omega),
    decide_eq_true hcover, decide_eq_false hnot]
  rfl

theorem decay_covers_iff {pool : Int} (hp : int64Min ≤ pool) (hp' : pool ≤ int64Max) :
    ∃ decay, rdComputePoolDecay ⟨userParams.decayPerTimeUnit, hiveRdDecayDenomShift⟩ pool 1 =
        .ok decay ∧
      (userParams.budgetPerTimeUnit ≤ decay ↔ (rdPoolEq userParams : Int) ≤ pool) := by
  obtain ⟨hb, -, -, -⟩ := hv.bounds
  have hdecay : userParams.decayPerTimeUnit ≤ hiveRdMaxDecay := hv.2.2.2
  have hd36 : userParams.decayPerTimeUnit ≤ 2 ^ hiveRdDecayDenomShift := by
    unfold hiveRdMaxDecay at hdecay
    unfold hiveRdDecayDenomShift
    omega
  unfold int64Min at hp
  unfold int64Max at hp'
  rcases lt_or_ge pool 0 with hneg | hnn
  · -- a negative pool: the negation of a decay, which is never negative
    refine ⟨-min ((userParams.decayPerTimeUnit * (-pool).toNat / 2 ^ hiveRdDecayDenomShift : Nat) :
      Int) (-pool), ?_, ?_⟩
    · rw [rdComputePoolDecay_of_neg hneg, rdComputePoolDecay_of_nonneg hdecay (by omega) (by omega)]
      rfl
    · have hmin : 0 ≤ min ((userParams.decayPerTimeUnit * (-pool).toNat /
          2 ^ hiveRdDecayDenomShift : Nat) : Int) (-pool) := le_min (Int.natCast_nonneg _) (by omega)
      constructor
      · intro h
        omega
      · intro h
        omega
  · obtain ⟨n, rfl⟩ := Int.eq_ofNat_of_zero_le hnn
    refine ⟨min ((userParams.decayPerTimeUnit * n / 2 ^ hiveRdDecayDenomShift : Nat) : Int) n, ?_, ?_⟩
    · rw [rdComputePoolDecay_of_nonneg hdecay hnn (by omega), Int.toNat_natCast]
    · obtain ⟨b, hbeq⟩ := Int.eq_ofNat_of_zero_le hb.le
      rw [Nat.cast_le, hv.rdPoolEq_le_iff, ← le_min_div_iff hd36, hbeq, Int.toNat_natCast,
        ← Nat.cast_min, Nat.cast_le]

end RdUserParams.Valid

/-- For parameters within their validated bounds, `rd_setup_dynamics_params` returns, and its
`pool_eq` is the least pool whose decay covers the budget. -/
theorem rd_pool_eq_least_balanced (userParams : RdUserParams) (systemParams : RdSystemParams)
    (dparamsOut : RdDynamicsParams) (hb : hiveRdMinBudget ≤ userParams.budgetPerTimeUnit)
    (hb' : userParams.budgetPerTimeUnit ≤ hiveRdMaxBudget)
    (hd : hiveRdMinDecay ≤ userParams.decayPerTimeUnit)
    (hd' : userParams.decayPerTimeUnit ≤ hiveRdMaxDecay)
    (hs : systemParams.decayPerTimeUnitDenomShift = hiveRdDecayDenomShift) :
    ∃ dparams, rdSetupDynamicsParams userParams systemParams dparamsOut = .ok dparams ∧
      dparams.poolEq = (userParams.budgetPerTimeUnit.toNat * 2 ^ hiveRdDecayDenomShift +
        (userParams.decayPerTimeUnit - 1)) / userParams.decayPerTimeUnit ∧
      (dparams.poolEq : Int) ≤ int64Max ∧
      (∀ pool, int64Min ≤ pool → pool ≤ int64Max →
        ∃ decay, rdComputePoolDecay dparams.decayParams pool 1 = .ok decay) ∧
      IsLeast {pool : Int | int64Min ≤ pool ∧ pool ≤ int64Max ∧
        ∃ decay, rdComputePoolDecay dparams.decayParams pool 1 = .ok decay ∧
          dparams.budgetPerTimeUnit ≤ decay} dparams.poolEq := by
  have hv : userParams.Valid := ⟨hb, hb', hd, hd'⟩
  obtain ⟨-, hP⟩ := hv.rdPoolEq_bounds
  have hlo : int64Min ≤ (rdPoolEq userParams : Int) := by
    unfold int64Min
    omega
  have hhi : (rdPoolEq userParams : Int) ≤ int64Max := by
    unfold int64Max
    omega
  refine ⟨_, hv.rdSetupDynamicsParams_eq hs, rfl, hhi, ?defined, ?member, ?least⟩
  case defined =>
    intro pool hp hp'
    obtain ⟨decay, h, -⟩ := hv.decay_covers_iff hp hp'
    exact ⟨decay, h⟩
  case member =>
    obtain ⟨decay, h, hiff⟩ := hv.decay_covers_iff hlo hhi
    exact ⟨hlo, hhi, decay, h, hiff.2 le_rfl⟩
  case least =>
    rintro pool ⟨hp, hp', decay, h, hcov⟩
    obtain ⟨decay', h', hiff⟩ := hv.decay_covers_iff hp hp'
    have heq : decay = decay' := Except.ok.inj (h.symm.trans h')
    exact hiff.1 (heq ▸ hcov)

theorem rd_pool_eq_least_balanced_default :
    hiveRdMinBudget ≤ (797 : Int) ∧ (797 : Int) ≤ hiveRdMaxBudget ∧ hiveRdMinDecay ≤ 347321 ∧
      347321 ≤ hiveRdMaxDecay ∧
      ∃ dparams, rdSetupDynamicsParams ⟨797, 347321⟩ ⟨10000, hiveRdDecayDenomShift⟩
          ⟨0, 0, 0, 0, ⟨0, 0⟩, 0⟩ = .ok dparams ∧
        dparams.poolEq = 157691079 :=
  have h := rd_pool_eq_least_balanced ⟨797, 347321⟩ ⟨10000, hiveRdDecayDenomShift⟩
    ⟨0, 0, 0, 0, ⟨0, 0⟩, 0⟩ (by decide) (by decide) (by decide) (by decide) rfl
  ⟨by decide, by decide, by decide, by decide, h.imp fun _ hd => ⟨hd.1, hd.2.1.trans (by decide)⟩⟩

end Chain
end HiveChain
