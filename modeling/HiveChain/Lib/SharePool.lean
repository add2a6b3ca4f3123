import Mathlib.Logic.Relation
import Mathlib.Algebra.Order.Field.Rat
import Mathlib.Tactic.Ring
import Mathlib.Tactic.Linarith

/-!
# HiveChain.Lib.SharePool

A fund backing shares, priced by the fund per share. A deposit mints shares at the price rounded
down, a redemption pays at the price rounded down; neither lowers the value of a share, so no run
of them does, and what a run mints or pays is bounded by the price it started from.
-/

namespace HiveChain

namespace SharePool

/-- `fund` units backing `shares` shares. -/
structure Pool where
  fund : Int
  shares : Int
deriving DecidableEq, Repr

/-- `p` is worth at most `q` per share, cross-multiplied. -/
def ValueLe (p q : Pool) : Prop := p.fund * q.shares ≤ q.fund * p.shares

instance (p q : Pool) : Decidable (ValueLe p q) := inferInstanceAs (Decidable (_ ≤ _))

/-- The fund per share. -/
def Pool.value (p : Pool) : ℚ := p.fund / p.shares

/-- A deposit of `a` minting `a * shares / fund`, or a redemption of `v` of the shares paying
`v * fund / shares`. -/
inductive Step : Pool → Pool → Prop
  | deposit {f s a : Int} : 0 < f → 0 < s → 0 ≤ a → Step ⟨f, s⟩ ⟨f + a, s + a * s / f⟩
  | redeem {f s v : Int} : 0 < f → 0 < s → 0 ≤ v → v < s → Step ⟨f, s⟩ ⟨f - v * f / s, s - v⟩

theorem ValueLe.refl (p : Pool) : ValueLe p p := le_refl _

theorem ValueLe.trans {p q r : Pool} (hp : 0 ≤ p.shares) (hq : 0 < q.shares) (hr : 0 ≤ r.shares)
    (hpq : ValueLe p q) (hqr : ValueLe q r) : ValueLe p r := by
  unfold ValueLe at *
  have h₁ := Int.mul_le_mul_of_nonneg_right hpq hr
  have h₂ := Int.mul_le_mul_of_nonneg_right hqr hp
  have h : p.fund * r.shares * q.shares ≤ r.fund * p.shares * q.shares :=
    calc p.fund * r.shares * q.shares = p.fund * q.shares * r.shares := by ring
      _ ≤ q.fund * p.shares * r.shares := h₁
      _ = q.fund * r.shares * p.shares := by ring
      _ ≤ r.fund * q.shares * p.shares := h₂
      _ = r.fund * p.shares * q.shares := by ring
  exact le_of_mul_le_mul_right h hq

theorem ValueLe.value_le {p q : Pool} (h : ValueLe p q) (hp : 0 < p.shares) (hq : 0 < q.shares) :
    p.value ≤ q.value := by
  unfold Pool.value
  rw [div_le_div_iff₀ (by exact_mod_cast hp) (by exact_mod_cast hq)]
  exact_mod_cast h

theorem Step.pos {p q : Pool} (h : Step p q) : 0 < q.fund ∧ 0 < q.shares := by
  cases h with
  | @deposit f s a hf hs ha =>
    have hn : 0 ≤ a * s / f := Int.ediv_nonneg (Int.mul_nonneg ha hs.le) hf.le
    exact ⟨by show 0 < f + a; omega, by show 0 < s + a * s / f; omega⟩
  | @redeem f s v hf hs hv hvs =>
    have hlt : v * f / s < f :=
      Int.ediv_lt_of_lt_mul hs (by rw [Int.mul_comm f s]; exact Int.mul_lt_mul_of_pos_right hvs hf)
    exact ⟨by show 0 < f - v * f / s; omega, by show 0 < s - v; omega⟩

theorem Step.valueLe {p q : Pool} (h : Step p q) : ValueLe p q := by
  cases h with
  | @deposit f s a hf hs ha =>
    have hmint := Int.ediv_mul_le (a * s) hf.ne'
    show f * (s + a * s / f) ≤ (f + a) * s
    linarith
  | @redeem f s v hf hs hv hvs =>
    have hpay := Int.ediv_mul_le (v * f) hs.ne'
    show f * (s - v) ≤ (f - v * f / s) * s
    linarith

theorem run_valueLe {p q : Pool} (h : Relation.ReflTransGen Step p q) (hf : 0 < p.fund)
    (hs : 0 < p.shares) : 0 < q.fund ∧ 0 < q.shares ∧ ValueLe p q := by
  induction h with
  | refl => exact ⟨hf, hs, ValueLe.refl p⟩
  | tail _ hstep ih =>
    obtain ⟨-, hs', hle⟩ := ih
    obtain ⟨hf'', hs''⟩ := hstep.pos
    exact ⟨hf'', hs'', hle.trans hs.le hs' hs''.le hstep.valueLe⟩

theorem ValueLe.minted_le {p q : Pool} (h : ValueLe p q) (hf : 0 < p.fund) :
    q.shares - p.shares ≤ (q.fund - p.fund) * p.shares / p.fund := by
  apply Int.le_ediv_of_mul_le hf
  unfold ValueLe at h
  linarith

theorem ValueLe.paid_le {p q : Pool} (h : ValueLe p q) (hs : 0 < p.shares) :
    p.fund - q.fund ≤ (p.shares - q.shares) * p.fund / p.shares := by
  apply Int.le_ediv_of_mul_le hs
  unfold ValueLe at h
  linarith

end SharePool

end HiveChain
