import HiveChain.Chain.Manabar
import HiveChain.Chain.ResourceDynamicsSpec

/-!
# HiveChain.Chain.ManabarSpec

What `regenerate_mana` computes, and the laws of regeneration.

* `regeneratedMana` — the mana after `dt` seconds: the maximum when already full, otherwise the
  current mana plus `max_mana * dt / regen_time`, at most the maximum; `dt` is capped at
  `regen_time` unless the regeneration skips the cap.
* `regenerateMana_eq` — the code computes it, and throws exactly when the uncapped amount does
  not fit `int64_t`.
* `regeneratedMana_twice_le` — regenerating in two steps never gives more than in one.
-/

namespace HiveChain
namespace Chain

/-! ## `int64_t` words -/

theorem int64OfUint64_neg_iff {f : Nat} (hf : f < 2 ^ 64) : int64OfUint64 f < 0 ↔ 2 ^ 63 ≤ f := by
  unfold int64OfUint64
  rw [Int.bmod_def, Int.emod_eq_of_lt (by omega) (by omega)]
  split <;> omega

theorem testBit_63_iff {f : Nat} (hf : f < 2 ^ 64) : f.testBit 63 = true ↔ 2 ^ 63 ≤ f := by
  rw [Nat.testBit_eq_decide_div_mod_eq, decide_eq_true_eq]
  omega

theorem uint64_int64Max : uint64 int64Max = 2 ^ 63 - 1 := by decide

theorem signedSatAdd_of_nonneg {x y : Int} (hx : 0 ≤ x) (hx' : x ≤ int64Max) (hy : 0 ≤ y)
    (hy' : y ≤ int64Max) : signedSatAdd x y = min (x + y) int64Max := by
  unfold int64Max at hx' hy'
  obtain ⟨a, rfl⟩ := Int.eq_ofNat_of_zero_le hx
  obtain ⟨b, rfl⟩ := Int.eq_ofNat_of_zero_le hy
  have ha : a < 2 ^ 63 := by omega
  have hb : b < 2 ^ 63 := by omega
  have hua : uint64 (a : Int) = a := by exact_mod_cast uint64_of_lt hx (by omega)
  have hub : uint64 (b : Int) = b := by exact_mod_cast uint64_of_lt hy (by omega)
  have hres : (a + b) % 2 ^ 64 = a + b := Nat.mod_eq_of_lt (by omega)
  have hflag_lt : complement64 (a ^^^ b) &&& (a ^^^ (a + b)) < 2 ^ 64 :=
    Nat.and_lt_two_pow _ (Nat.xor_lt_two_pow (by omega) (by omega))
  have hflag : (complement64 (a ^^^ b) &&& (a ^^^ (a + b))).testBit 63 = (a + b).testBit 63 := by
    unfold complement64
    rw [Nat.testBit_and, Nat.testBit_xor, Nat.testBit_xor, Nat.testBit_xor, Nat.testBit_two_pow_sub_one,
      Nat.testBit_lt_two_pow ha, Nat.testBit_lt_two_pow hb]
    simp
  have hover_iff : 2 ^ 63 ≤ complement64 (a ^^^ b) &&& (a ^^^ (a + b)) ↔ 2 ^ 63 ≤ a + b := by
    rw [← testBit_63_iff hflag_lt, hflag, testBit_63_iff (by omega)]
  unfold signedSatAdd
  dsimp only
  rw [hua, hub, hres]
  by_cases hover : 2 ^ 63 ≤ a + b
  · -- an overflow: the saturated maximum
    rw [if_pos ((int64OfUint64_neg_iff hflag_lt).2 (hover_iff.2 hover)), if_pos (by omega), uint64_int64Max,
      int64OfUint64_of_lt (by omega)]
    unfold int64Max
    omega
  · rw [if_neg (fun h => hover (hover_iff.1 ((int64OfUint64_neg_iff hflag_lt).1 h))),
      int64OfUint64_of_lt (by omega)]
    unfold int64Max
    omega

/-! ## What a regeneration computes -/

/-- The seconds that count: `dt`, capped at `regen_time` unless the cap is skipped. -/
def regenDt (skipCapRegen : Bool) (regenTime dt : Nat) : Nat :=
  if skipCapRegen then dt else min dt regenTime

/-- `max_mana * dt / regen_time` over the seconds that count. -/
def regenAmount (skipCapRegen : Bool) (params : ManabarParams) (dt : Nat) : Nat :=
  params.maxMana.toNat * regenDt skipCapRegen params.regenTime dt / params.regenTime

/-- The mana after `dt` seconds from `c`. -/
def regeneratedMana (skipCapRegen : Bool) (params : ManabarParams) (c : Int) (dt : Nat) : Int :=
  if params.maxMana ≤ c then params.maxMana
  else min params.maxMana (c + regenAmount skipCapRegen params dt)

theorem regenAmount_mono (skipCapRegen : Bool) (params : ManabarParams) {d₁ d₂ : Nat} (h : d₁ ≤ d₂) :
    regenAmount skipCapRegen params d₁ ≤ regenAmount skipCapRegen params d₂ := by
  unfold regenAmount regenDt
  apply Nat.div_le_div_right
  apply Nat.mul_le_mul_left
  split <;> omega

theorem regenAmount_add (skipCapRegen : Bool) (params : ManabarParams) (hR : 0 < params.regenTime)
    (d₁ d₂ : Nat) :
    regenAmount skipCapRegen params d₁ + regenAmount skipCapRegen params d₂ ≤
        regenAmount skipCapRegen params (d₁ + d₂) ∨
      params.maxMana.toNat ≤ regenAmount skipCapRegen params (d₁ + d₂) := by
  by_cases hcap : skipCapRegen = false ∧ params.regenTime < d₁ + d₂
  · -- the capped period is the whole regeneration time
    right
    unfold regenAmount regenDt
    rw [if_neg (by simp [hcap.1]), min_eq_right hcap.2.le, Nat.mul_div_cancel _ hR]
  · left
    have hdt : regenDt skipCapRegen params.regenTime (d₁ + d₂) =
        regenDt skipCapRegen params.regenTime d₁ + regenDt skipCapRegen params.regenTime d₂ := by
      unfold regenDt
      cases skipCapRegen
      · simp only [Bool.false_eq_true, reduceIte]
        simp only [true_and, not_lt] at hcap
        omega
      · rfl
    unfold regenAmount
    rw [hdt, Nat.mul_add]
    exact Nat.div_add_div_le_add_div

theorem regeneratedMana_le {skipCapRegen : Bool} {params : ManabarParams} (c : Int) (dt : Nat) :
    regeneratedMana skipCapRegen params c dt ≤ params.maxMana := by
  unfold regeneratedMana
  split
  · exact le_refl _
  · exact min_le_left _ _

theorem min_le_regeneratedMana {skipCapRegen : Bool} {params : ManabarParams} (c : Int) (dt : Nat) :
    min c params.maxMana ≤ regeneratedMana skipCapRegen params c dt := by
  unfold regeneratedMana
  split <;> omega

theorem regeneratedMana_twice_le {skipCapRegen : Bool} {params : ManabarParams}
    (hM : 0 ≤ params.maxMana) (hR : 0 < params.regenTime) {c : Int} (hc : 0 ≤ c) (d₁ d₂ : Nat) :
    regeneratedMana skipCapRegen params (regeneratedMana skipCapRegen params c d₁) d₂ ≤
      regeneratedMana skipCapRegen params c (d₁ + d₂) := by
  have hmono := regenAmount_mono skipCapRegen params (show d₁ ≤ d₁ + d₂ by omega)
  have hadd := regenAmount_add skipCapRegen params hR d₁ d₂
  have hMnat : (params.maxMana.toNat : Int) = params.maxMana := Int.toNat_of_nonneg hM
  unfold regeneratedMana
  split
  · -- already full: both stay at the maximum
    rename_i hfull
    rw [if_pos (le_refl _)]
  · rename_i hnot
    split
    · -- the first period fills it; then so does the whole
      rename_i hfill
      have : params.maxMana ≤ c + (regenAmount skipCapRegen params (d₁ + d₂) : Int) := by
        have := min_le_left params.maxMana (c + (regenAmount skipCapRegen params d₁ : Int))
        omega
      omega
    · rename_i hpart
      rcases hadd with hadd | hadd <;> omega

/-! ## The code computes it -/

theorem validate_of_nonneg {params : ManabarParams} (hM : 0 ≤ params.maxMana) :
    params.validate = .ok () := by
  unfold ManabarParams.validate
  rw [if_pos hM]
  rfl

theorem regen_uint128 {skipCapRegen : Bool} {params : ManabarParams} (hM : 0 ≤ params.maxMana)
    (hM' : params.maxMana ≤ int64Max) {dt : Nat} (hdt : dt < 2 ^ 32) :
    uint64 (if params.maxMana ≥ 0 then params.maxMana else 0) *
        (if !skipCapRegen then (if dt > params.regenTime then params.regenTime else dt) else dt) %
        2 ^ 128 / params.regenTime =
      regenAmount skipCapRegen params dt := by
  have hu : uint64 params.maxMana = params.maxMana.toNat := by
    unfold uint64
    rw [Int.emod_eq_of_lt hM (by unfold int64Max at hM'; omega)]
  have hdt' : (if !skipCapRegen then (if dt > params.regenTime then params.regenTime else dt) else dt) =
      regenDt skipCapRegen params.regenTime dt := by
    unfold regenDt
    cases skipCapRegen <;> simp only [Bool.not_false, Bool.not_true, reduceIte, Bool.false_eq_true]
    split <;> omega
  have hlt : params.maxMana.toNat * regenDt skipCapRegen params.regenTime dt < 2 ^ 128 := by
    have h1 : params.maxMana.toNat < 2 ^ 63 := by unfold int64Max at hM'; omega
    have h2 : regenDt skipCapRegen params.regenTime dt < 2 ^ 32 := by
      unfold regenDt
      split <;> omega
    calc params.maxMana.toNat * regenDt skipCapRegen params.regenTime dt < 2 ^ 63 * 2 ^ 32 :=
          Nat.mul_lt_mul'' h1 h2
      _ ≤ 2 ^ 128 := by norm_num
  rw [if_pos hM, hu, hdt', Nat.mod_eq_of_lt hlt]
  rfl

theorem regenerateMana_eq {skipCapRegen : Bool} {params : ManabarParams} {m : Manabar} {now : Nat}
    (hM : 0 ≤ params.maxMana) (hM' : params.maxMana ≤ int64Max) (hc : 0 ≤ m.currentMana)
    (hnow : m.lastUpdateTime ≤ now) (hnow' : now < 2 ^ 32) :
    m.regenerateMana skipCapRegen params now =
      if params.maxMana ≤ m.currentMana then .ok ⟨params.maxMana, now⟩
      else if regenAmount skipCapRegen params (now - m.lastUpdateTime) ≤ 2 ^ 63 - 1 then
        .ok ⟨regeneratedMana skipCapRegen params m.currentMana (now - m.lastUpdateTime), now⟩
      else if regenAmount skipCapRegen params (now - m.lastUpdateTime) ≤ 2 ^ 64 - 1 then
        .error "u_regen <= static_cast<uint64_t>( std::numeric_limits< int64_t >::max() )"
      else .error "u <= std::numeric_limits<uint64_t>::max()" := by
  unfold Manabar.regenerateMana
  rw [validate_of_nonneg hM, EState.except_ok_bind]
  dsimp only
  rw [if_pos hnow]
  by_cases hfull : params.maxMana ≤ m.currentMana
  · rw [if_pos hfull, if_pos hfull]
    rfl
  rw [if_neg hfull, if_neg hfull]
  by_cases hd0 : now - m.lastUpdateTime = 0
  · -- no time passed: the manabar as it is
    have hzero : regenAmount skipCapRegen params 0 = 0 := by simp [regenAmount, regenDt]
    rw [if_pos hd0, hd0, hzero, if_pos (by decide)]
    have hsame : m = ⟨m.currentMana, now⟩ := by
      have ht : m.lastUpdateTime = now := by omega
      rw [← ht]
    unfold regeneratedMana
    rw [if_neg hfull, hzero, Nat.cast_zero, add_zero, min_eq_right (by omega), ← hsame]
    rfl
  rw [if_neg hd0, regen_uint128 hM hM' (by omega)]
  by_cases hfit : regenAmount skipCapRegen params (now - m.lastUpdateTime) ≤ 2 ^ 63 - 1
  · -- the amount fits: the saturating sum, then the cap
    rw [uint128ToUint64_of_le (by omega), if_pos hfit]
    have hsat : signedSatAdd m.currentMana
        (int64OfUint64 (regenAmount skipCapRegen params (now - m.lastUpdateTime))) =
        min (m.currentMana + regenAmount skipCapRegen params (now - m.lastUpdateTime)) int64Max := by
      rw [int64OfUint64_of_lt (by omega)]
      exact signedSatAdd_of_nonneg hc (by omega) (by omega) (by unfold int64Max; omega)
    show (if _ ≤ uint64 int64Max then Except.ok _ else _) = _
    -- the cap at `max_mana` hides the saturation at `int64_t`
    have hcap : (if min (m.currentMana + regenAmount skipCapRegen params (now - m.lastUpdateTime)) int64Max >
        params.maxMana then params.maxMana
        else min (m.currentMana + regenAmount skipCapRegen params (now - m.lastUpdateTime)) int64Max) =
        min params.maxMana (m.currentMana + regenAmount skipCapRegen params (now - m.lastUpdateTime)) := by
      unfold int64Max at hM' ⊢
      simp only [gt_iff_lt, min_def]
      split_ifs <;> omega
    rw [if_pos (by rw [uint64_int64Max]; exact hfit), hsat, hcap]
    unfold regeneratedMana
    rw [if_neg hfull]
  · rw [if_neg hfit]
    by_cases hfit' : regenAmount skipCapRegen params (now - m.lastUpdateTime) ≤ 2 ^ 64 - 1
    · rw [uint128ToUint64_of_le hfit', if_pos hfit']
      show (if _ ≤ uint64 int64Max then Except.ok _ else _) = _
      rw [if_neg (by rw [uint64_int64Max]; exact hfit)]
      rfl
    · rw [if_neg hfit']
      unfold uint128ToUint64
      rw [if_neg hfit']
      rfl

theorem regenerateMana_eq_ok_iff {skipCapRegen : Bool} {params : ManabarParams} {m m' : Manabar}
    {now : Nat} (hM : 0 ≤ params.maxMana) (hM' : params.maxMana ≤ int64Max) (hc : 0 ≤ m.currentMana)
    (hnow : m.lastUpdateTime ≤ now) (hnow' : now < 2 ^ 32) :
    m.regenerateMana skipCapRegen params now = .ok m' ↔
      (params.maxMana ≤ m.currentMana ∨
          regenAmount skipCapRegen params (now - m.lastUpdateTime) ≤ 2 ^ 63 - 1) ∧
        m' = ⟨regeneratedMana skipCapRegen params m.currentMana (now - m.lastUpdateTime), now⟩ := by
  rw [regenerateMana_eq hM hM' hc hnow hnow']
  by_cases hfull : params.maxMana ≤ m.currentMana
  · have hval : regeneratedMana skipCapRegen params m.currentMana (now - m.lastUpdateTime) =
        params.maxMana := by
      unfold regeneratedMana
      rw [if_pos hfull]
    rw [if_pos hfull, hval]
    constructor
    · intro h
      exact ⟨Or.inl hfull, (Except.ok.inj h).symm⟩
    · rintro ⟨-, rfl⟩
      rfl
  · rw [if_neg hfull]
    split
    · rename_i hfit
      constructor
      · intro h
        exact ⟨Or.inr hfit, (Except.ok.inj h).symm⟩
      · rintro ⟨-, rfl⟩
        rfl
    · rename_i hfit
      constructor
      · intro h
        split at h <;> cases h
      · rintro ⟨hor, -⟩
        omega

theorem regenAmount_false_le {params : ManabarParams} (hR : 0 < params.regenTime) (dt : Nat) :
    regenAmount false params dt ≤ params.maxMana.toNat := by
  unfold regenAmount regenDt
  rw [if_neg Bool.false_ne_true]
  calc params.maxMana.toNat * min dt params.regenTime / params.regenTime
      ≤ params.maxMana.toNat * params.regenTime / params.regenTime :=
        Nat.div_le_div_right (Nat.mul_le_mul_left _ (min_le_right _ _))
    _ = params.maxMana.toNat := Nat.mul_div_cancel _ hR

theorem regenerateMana_twice {skipCapRegen : Bool} {params : ManabarParams} {m m₂ : Manabar}
    {t now : Nat} (hM : 0 ≤ params.maxMana) (hM' : params.maxMana ≤ int64Max)
    (hR : 0 < params.regenTime) (hc : 0 ≤ m.currentMana) (ht : m.lastUpdateTime ≤ t) (htnow : t ≤ now)
    (hnow' : now < 2 ^ 32) (h : m.regenerateMana skipCapRegen params now = .ok m₂) :
    ∃ m₁ m₁₂, m.regenerateMana skipCapRegen params t = .ok m₁ ∧
      m₁.regenerateMana skipCapRegen params now = .ok m₁₂ ∧ m₁₂.currentMana ≤ m₂.currentMana := by
  obtain ⟨hfit, rfl⟩ := (regenerateMana_eq_ok_iff hM hM' hc (by omega) hnow').1 h
  have hmono₁ := regenAmount_mono skipCapRegen params (show t - m.lastUpdateTime ≤ now - m.lastUpdateTime by omega)
  have hmono₂ := regenAmount_mono skipCapRegen params (show now - t ≤ now - m.lastUpdateTime by omega)
  set c₁ := regeneratedMana skipCapRegen params m.currentMana (t - m.lastUpdateTime)
  have hfit₁ : params.maxMana ≤ m.currentMana ∨
      regenAmount skipCapRegen params (t - m.lastUpdateTime) ≤ 2 ^ 63 - 1 := by omega
  have h₁ : m.regenerateMana skipCapRegen params t = .ok ⟨c₁, t⟩ :=
    (regenerateMana_eq_ok_iff hM hM' hc ht (by omega)).2 ⟨hfit₁, rfl⟩
  have hc₁ : 0 ≤ c₁ := le_trans (le_min hc hM) (min_le_regeneratedMana _ _)
  have hfull₁ : params.maxMana ≤ m.currentMana → params.maxMana ≤ c₁ := by
    intro hfull
    show params.maxMana ≤ regeneratedMana skipCapRegen params m.currentMana (t - m.lastUpdateTime)
    unfold regeneratedMana
    rw [if_pos hfull]
  have hfit₂ : params.maxMana ≤ c₁ ∨ regenAmount skipCapRegen params (now - t) ≤ 2 ^ 63 - 1 := by
    rcases hfit with hfull | hle
    · exact Or.inl (hfull₁ hfull)
    · exact Or.inr (by omega)
  have h₂ : (Manabar.mk c₁ t).regenerateMana skipCapRegen params now =
      .ok ⟨regeneratedMana skipCapRegen params c₁ (now - t), now⟩ :=
    (regenerateMana_eq_ok_iff hM hM' hc₁ htnow hnow').2 ⟨hfit₂, rfl⟩
  refine ⟨_, _, h₁, h₂, ?_⟩
  have htwice : regeneratedMana skipCapRegen params c₁ (now - t) ≤
      regeneratedMana skipCapRegen params m.currentMana (t - m.lastUpdateTime + (now - t)) :=
    regeneratedMana_twice_le hM hR hc (t - m.lastUpdateTime) (now - t)
  rw [show t - m.lastUpdateTime + (now - t) = now - m.lastUpdateTime by omega] at htwice
  exact htwice

/-- The laws of `regenerate_mana` for `int64_t` parameters and `uint32_t` times: the capped form
never throws; the uncapped form succeeds exactly when the manabar is full or its amount fits
`int64_t`; both set the time to `now` and the mana between `min(c, M)` and `M`; and two
regenerations never give more than one. -/
theorem manabar_regeneration_laws {params : ManabarParams} {m : Manabar} {now : Nat}
    (hM : 0 ≤ params.maxMana) (hM' : params.maxMana ≤ int64Max) (hR : 0 < params.regenTime)
    (hc : 0 ≤ m.currentMana) (hnow : m.lastUpdateTime ≤ now) (hnow' : now < 2 ^ 32) :
    m.regenerateMana false params now =
        .ok ⟨regeneratedMana false params m.currentMana (now - m.lastUpdateTime), now⟩ ∧
      (∀ m', m.regenerateMana true params now = .ok m' ↔
        (params.maxMana ≤ m.currentMana ∨ regenAmount true params (now - m.lastUpdateTime) ≤ 2 ^ 63 - 1) ∧
          m' = ⟨regeneratedMana true params m.currentMana (now - m.lastUpdateTime), now⟩) ∧
      (∀ skipCapRegen, min m.currentMana params.maxMana ≤
          regeneratedMana skipCapRegen params m.currentMana (now - m.lastUpdateTime) ∧
        regeneratedMana skipCapRegen params m.currentMana (now - m.lastUpdateTime) ≤ params.maxMana) ∧
      (∀ skipCapRegen t m₂, m.lastUpdateTime ≤ t → t ≤ now →
        m.regenerateMana skipCapRegen params now = .ok m₂ →
        ∃ m₁ m₁₂, m.regenerateMana skipCapRegen params t = .ok m₁ ∧
          m₁.regenerateMana skipCapRegen params now = .ok m₁₂ ∧ m₁₂.currentMana ≤ m₂.currentMana) := by
  have hcapped := regenAmount_false_le hR (now - m.lastUpdateTime)
  refine ⟨?_, fun m' => regenerateMana_eq_ok_iff hM hM' hc hnow hnow', ?_, ?_⟩
  · -- the capped amount is at most `max_mana`, which fits
    apply (regenerateMana_eq_ok_iff hM hM' hc hnow hnow').2 ⟨Or.inr ?_, rfl⟩
    unfold int64Max at hM'
    omega
  · intro skipCapRegen
    exact ⟨min_le_regeneratedMana _ _, regeneratedMana_le _ _⟩
  · intro skipCapRegen t m₂ ht htnow h
    exact regenerateMana_twice hM hM' hR hc ht htnow hnow' h

theorem manabar_regeneration_laws_sample :
    (0 : Int) ≤ 1000 ∧ (1000 : Int) ≤ int64Max ∧ 0 < 100 ∧ (0 : Int) ≤ 0 ∧ 0 ≤ 50 ∧ 50 < 2 ^ 32 ∧
      (Manabar.mk 0 0).regenerateMana false ⟨1000, 100⟩ 50 =
        .ok ⟨regeneratedMana false ⟨1000, 100⟩ 0 (50 - 0), 50⟩ :=
  ⟨by decide, by decide, by decide, by decide, by decide, by decide,
    (@manabar_regeneration_laws ⟨1000, 100⟩ ⟨0, 0⟩ 50 (by decide) (by decide) (by decide) (by decide)
      (by decide) (by decide)).1⟩

/-- The uncapped regeneration throws: `2 ^ 62` mana regenerating in one second, two seconds
later, is `2 ^ 63`, past `int64_t`. -/
theorem uncapped_regeneration_throws :
    (Manabar.mk 0 0).regenerateMana true ⟨2 ^ 62, 1⟩ 2 =
      .error "u_regen <= static_cast<uint64_t>( std::numeric_limits< int64_t >::max() )" := by
  decide

end Chain
end HiveChain
