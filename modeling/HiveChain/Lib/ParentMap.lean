import Mathlib.Algebra.BigOperators.Group.Finset.Basic
import Mathlib.Algebra.BigOperators.Intervals
import Mathlib.Algebra.Group.Int.Defs

/-!
# HiveChain.Lib.ParentMap

Nodes that point to at most one parent, `p : α → Option α`, as accounts point to a proxy.

* `anc p k y`: the ancestor of `y` after `k` steps, if the chain is that long; `path p k y` the
  `k` nodes of the chain before it.
* `IsLca p x y i j c`: `c` is the lowest common ancestor of `x` and `y`; below it the chains
  pass through two different children (`IsLca.children`).
* `Acyclic p`: no node is its own ancestor. Pointing a node `a` at `b` keeps this when `b`'s
  chain does not reach `a` (`acyclic_update`).
* `depthSum p w x n`: the total weight of the nodes `n` steps below `x`.

The main fact is `depthSum_attach`: pointing a root `a` at `b` adds the weights below `a`, each
depth `k` at the ancestor `n - k` steps above `a`. It needs no acyclicity: both sides count
the same paths.
-/

namespace HiveChain

namespace ParentMap

open Finset

variable {α : Type} (p : α → Option α)

/-- The ancestor `k` steps above `y`. -/
def anc : ℕ → α → Option α
  | 0, y => some y
  | k + 1, y => (p y).bind (anc k)

@[simp] theorem anc_zero (y : α) : anc p 0 y = some y := rfl

theorem anc_succ (k : ℕ) (y : α) : anc p (k + 1) y = (p y).bind (anc p k) := rfl

theorem anc_add (k l : ℕ) (y : α) : anc p (k + l) y = (anc p k y).bind (anc p l) := by
  induction k generalizing y with
  | zero => simp
  | succ k ih =>
    rw [Nat.add_right_comm, anc_succ, anc_succ]
    cases p y with
    | none => rfl
    | some z => exact ih z

theorem anc_one (y : α) : anc p 1 y = p y := by
  rw [anc_succ]
  cases p y <;> rfl

theorem anc_succ' (k : ℕ) (y : α) : anc p (k + 1) y = (anc p k y).bind p := by
  rw [anc_add]
  cases anc p k y with
  | none => rfl
  | some z => exact anc_one p z

variable {p}

theorem anc_of_root {t : α} (ht : p t = none) (k : ℕ) : anc p (k + 1) t = none := by
  rw [anc_succ, ht]
  rfl

/-- The first `k` nodes of the chain from `y`, `y` first. -/
def path (p : α → Option α) : ℕ → α → List α
  | 0, _ => []
  | k + 1, y => y :: ((p y).map (path p k)).getD []

theorem path_succ_of_eq {k : ℕ} {y z : α} (h : p y = some z) : path p (k + 1) y = y :: path p k z := by
  rw [path, h]
  rfl

theorem path_succ_of_anc : ∀ {k : ℕ} {y z : α}, anc p k y = some z → path p (k + 1) y = path p k y ++ [z]
  | 0, y, z, h => by
    cases h
    show y :: ((p y).map (path p 0)).getD [] = [y]
    cases p y <;> rfl
  | k + 1, y, z, h => by
    rw [anc_succ] at h
    cases hy : p y with
    | none =>
      rw [hy] at h
      cases h
    | some w =>
      rw [hy, Option.bind_some] at h
      rw [path_succ_of_eq hy, path_succ_of_eq hy, path_succ_of_anc h, List.cons_append]

theorem exists_anc_of_mem_path : ∀ {k : ℕ} {y x : α}, x ∈ path p k y → ∃ j < k, anc p j y = some x
  | 0, _, _, h => absurd h List.not_mem_nil
  | k + 1, y, x, h => by
    rcases List.mem_cons.1 h with rfl | h
    · exact ⟨0, Nat.succ_pos k, rfl⟩
    · cases hy : p y with
      | none =>
        rw [hy] at h
        exact absurd h List.not_mem_nil
      | some w =>
        rw [hy] at h
        obtain ⟨j, hj, hw⟩ := exists_anc_of_mem_path h
        exact ⟨j + 1, Nat.succ_lt_succ hj, by rw [anc_succ, hy, Option.bind_some, hw]⟩

theorem isChain_path : ∀ {k : ℕ} {y z : α}, anc p k y = some z → (path p (k + 1) y).IsChain fun a b => p a = some b
  | 0, y, z, h => by
    rw [path_succ_of_anc h]
    exact List.isChain_singleton z
  | k + 1, y, z, h => by
    rw [anc_succ] at h
    cases hy : p y with
    | none =>
      rw [hy] at h
      cases h
    | some w =>
      rw [hy, Option.bind_some] at h
      rw [path_succ_of_eq hy]
      show List.IsChain _ (y :: w :: ((p w).map (path p k)).getD [])
      exact List.isChain_cons_cons.2 ⟨hy, isChain_path h⟩

theorem anc_add_eq_some {k l : ℕ} {y z : α} (h : anc p (k + l) y = some z) :
    ∃ w, anc p k y = some w ∧ anc p l w = some z := by
  rw [anc_add] at h
  cases hw : anc p k y with
  | none =>
    rw [hw] at h
    cases h
  | some w =>
    rw [hw, Option.bind_some] at h
    exact ⟨w, rfl, h⟩

theorem path_add : ∀ {k : ℕ} (l : ℕ) {y z : α}, anc p k y = some z → path p (k + l) y = path p k y ++ path p l z
  | 0, l, y, z, h => by
    cases h
    rw [Nat.zero_add]
    rfl
  | k + 1, l, y, z, h => by
    rw [anc_succ] at h
    cases hy : p y with
    | none =>
      rw [hy] at h
      cases h
    | some w =>
      rw [hy, Option.bind_some] at h
      rw [Nat.add_right_comm, path_succ_of_eq hy, path_succ_of_eq hy, path_add l h, List.cons_append]

/-- `c` is the lowest common ancestor of `x` and `y`, `i` and `j` steps above them: every
common ancestor is at least as many steps above both. -/
structure IsLca (p : α → Option α) (x y : α) (i j : ℕ) (c : α) : Prop where
  left : anc p i x = some c
  right : anc p j y = some c
  least : ∀ i' j' c', anc p i' x = some c' → anc p j' y = some c' → i ≤ i' ∧ j ≤ j'

namespace IsLca

variable {x y c : α} {i j : ℕ}

theorem children (h : IsLca p x y i j c) (hi : 0 < i) (hj : 0 < j) :
    ∃ u v, anc p (i - 1) x = some u ∧ anc p (j - 1) y = some v ∧ u ≠ v ∧ p u = some c ∧ p v = some c := by
  have hx := h.left
  have hy := h.right
  rw [show i = i - 1 + 1 by omega, anc_succ'] at hx
  rw [show j = j - 1 + 1 by omega, anc_succ'] at hy
  cases hu : anc p (i - 1) x with
  | none =>
    rw [hu] at hx
    cases hx
  | some u =>
    cases hv : anc p (j - 1) y with
    | none =>
      rw [hv] at hy
      cases hy
    | some v =>
      rw [hu, Option.bind_some] at hx
      rw [hv, Option.bind_some] at hy
      -- a common child would be a lower common ancestor
      refine ⟨u, v, rfl, rfl, fun huv => ?_, hx, hy⟩
      rw [huv] at hu
      have := h.least (i - 1) (j - 1) v hu hv
      omega

theorem eq_zero_iff (h : IsLca p x y i j c) :
    i = 0 ∨ j = 0 ↔ (∃ k, anc p k x = some y) ∨ ∃ k, anc p k y = some x := by
  constructor
  · rintro (rfl | rfl)
    · have hc : x = c := Option.some_injective _ h.left
      exact .inr ⟨j, hc ▸ h.right⟩
    · have hc : y = c := Option.some_injective _ h.right
      exact .inl ⟨i, hc ▸ h.left⟩
  · rintro (⟨k, hk⟩ | ⟨k, hk⟩)
    · exact .inr (Nat.le_zero.1 (h.least k 0 y hk rfl).2)
    · exact .inl (Nat.le_zero.1 (h.least 0 k x rfl hk).1)

end IsLca

/-- No node is its own ancestor. -/
def Acyclic (p : α → Option α) : Prop := ∀ y k, anc p (k + 1) y ≠ some y

theorem anc_of_le {p' : α → Option α} (hle : ∀ y z, p' y = some z → p y = some z) :
    ∀ k y z, anc p' k y = some z → anc p k y = some z
  | 0, _, _, h => h
  | k + 1, y, z, h => by
    rw [anc_succ] at h ⊢
    cases hy : p' y with
    | none =>
      rw [hy] at h
      cases h
    | some u =>
      rw [hy, Option.bind_some] at h
      rw [hle y u hy, Option.bind_some]
      exact anc_of_le hle k u z h

theorem Acyclic.of_le {p' : α → Option α} (hp : Acyclic p)
    (hle : ∀ y z, p' y = some z → p y = some z) : Acyclic p' :=
  fun y k h => hp y k (anc_of_le hle (k + 1) y y h)

variable [DecidableEq α]

theorem update_none_le (a : α) : ∀ y z, Function.update p a none y = some z → p y = some z := by
  intro y z h
  by_cases hy : y = a
  · subst hy
    rw [Function.update_self] at h
    cases h
  · rwa [Function.update_of_ne hy] at h

theorem anc_update_of_avoid {a : α} {o : Option α} :
    ∀ {n y}, (∀ i < n, anc p i y ≠ some a) → anc (Function.update p a o) n y = anc p n y
  | 0, _, _ => rfl
  | n + 1, y, h => by
    have hy : y ≠ a := fun e => h 0 (Nat.succ_pos n) (by rw [e]; rfl)
    rw [anc_succ, anc_succ, Function.update_of_ne hy]
    cases hp : p y with
    | none => rfl
    | some z =>
      refine anc_update_of_avoid fun i hi => ?_
      have := h (i + 1) (Nat.succ_lt_succ hi)
      rwa [anc_succ, hp] at this

theorem acyclic_update {a b : α} (hp : Acyclic p) (hb : ∀ k, anc p k b ≠ some a) :
    Acyclic (Function.update p a (some b)) := by
  have hpa : Function.update p a (some b) a = some b := Function.update_self a (some b) p
  have hback : Function.update (Function.update p a (some b)) a (p a) = p := by
    rw [Function.update_idem, Function.update_eq_self]
  set p' := Function.update p a (some b)
  have hfromb : ∀ k, anc p' k b = anc p k b := fun k =>
    anc_update_of_avoid fun i _ => hb i
  have hnota : ∀ k, anc p' (k + 1) a ≠ some a := by
    intro k
    rw [anc_succ, hpa, Option.bind_some, hfromb]
    exact hb k
  intro y k hy
  by_cases hmeet : ∃ i < k + 1, anc p' i y = some a
  · -- a cycle through `y` that meets `a` is a cycle through `a`
    obtain ⟨i, hi, hia⟩ := hmeet
    obtain ⟨j, hj⟩ := Nat.exists_eq_add_of_lt hi
    have hk : k = i + j := by omega
    subst hk
    have : anc p' (i + j + 1) a = some a := by
      have e1 : anc p' (i + (i + j + 1)) y = anc p' (i + j + 1) a := by
        rw [anc_add, hia, Option.bind_some]
      have e2 : anc p' (i + (i + j + 1)) y = anc p' i y := by
        rw [Nat.add_comm i, anc_add, hy, Option.bind_some]
      rw [← e1, e2, hia]
    exact hnota (i + j) this
  · -- a cycle that avoids `a` is a cycle of the old map
    simp only [not_exists, not_and] at hmeet
    have hsame := anc_update_of_avoid (p := p') (o := p a) (n := k + 1) (y := y) hmeet
    rw [hback] at hsame
    rw [← hsame] at hy
    exact hp y k hy

theorem anc_detach_eq_self {a y : α} {k : ℕ} (hp : Acyclic p) :
    anc (Function.update p a none) k y = some a ↔ anc p k y = some a := by
  constructor
  · exact anc_of_le (update_none_le a) k y a
  · intro h
    rw [anc_update_of_avoid]
    · exact h
    · intro i hi hia
      -- meeting `a` at `i` and again at `k` would be a cycle through `a`
      obtain ⟨j, rfl⟩ := Nat.exists_eq_add_of_lt hi
      rw [Nat.add_assoc, anc_add, hia, Option.bind_some] at h
      exact hp a j h

theorem ind_anc_attach {M : Type} [AddCommMonoid M] {a b : α} (ha : p a = none) (x : α) (c : M) :
    ∀ n y, (if anc (Function.update p a (some b)) n y = some x then c else 0) =
      (if anc p n y = some x then c else 0) +
        ∑ k ∈ range n, if anc p k y = some a ∧ anc (Function.update p a (some b)) (n - k) a = some x
          then c else 0
  | 0, y => by simp
  | n + 1, y => by
    by_cases hy : y = a
    · -- the chain starts at `a`: only the term `k = 0` counts
      subst hy
      have hk : ∀ k ∈ range n, (if anc p (k + 1) y = some y ∧
          anc (Function.update p y (some b)) (n + 1 - (k + 1)) y = some x then c else 0) = 0 :=
        fun k _ => by rw [anc_of_root ha]; simp
      rw [anc_of_root ha, sum_range_succ', sum_congr rfl hk]
      simp
    · have hpy : Function.update p a (some b) y = p y := Function.update_of_ne hy _ _
      rw [anc_succ, anc_succ, hpy, sum_range_succ']
      cases hp : p y with
      | none =>
        have hk : ∀ k ∈ range n, (if anc p (k + 1) y = some a ∧
            anc (Function.update p a (some b)) (n + 1 - (k + 1)) a = some x then c else 0) = 0 :=
          fun k _ => by rw [anc_succ, hp]; simp
        rw [sum_congr rfl hk]
        simp [hy]
      | some z =>
        have hshift : ∀ k ∈ range n, (if anc p (k + 1) y = some a ∧
            anc (Function.update p a (some b)) (n + 1 - (k + 1)) a = some x then c else 0) =
            if anc p k z = some a ∧ anc (Function.update p a (some b)) (n - k) a = some x
            then c else 0 := fun k _ => by
          rw [anc_succ, hp, Option.bind_some, Nat.add_sub_add_right]
        rw [sum_congr rfl hshift, Option.bind_some, Option.bind_some, ind_anc_attach ha x c n z]
        simp [hy]

variable [Fintype α]

/-- The total weight of the nodes `n` steps below `x`. -/
def depthSum {M : Type} [AddCommMonoid M] (p : α → Option α) (w : α → M) (x : α) (n : ℕ) : M :=
  ∑ y, if anc p n y = some x then w y else 0

variable {M : Type} [AddCommMonoid M]

@[simp] theorem depthSum_zero (w : α → M) (x : α) : depthSum p w x 0 = w x := by
  simp [depthSum]

theorem depthSum_update (w : α → M) (a : α) (δ : M) (x : α) (n : ℕ) :
    depthSum p (Function.update w a (w a + δ)) x n =
      depthSum p w x n + if anc p n a = some x then δ else 0 := by
  unfold depthSum
  have hpoint : ∀ y, (if anc p n y = some x then Function.update w a (w a + δ) y else 0) =
      (if anc p n y = some x then w y else 0) +
        if y = a then (if anc p n a = some x then δ else 0) else 0 := by
    intro y
    by_cases hy : y = a
    · subst hy
      by_cases hx : anc p n y = some x <;> simp [hx]
    · simp [hy]
  rw [sum_congr rfl fun y _ => hpoint y, sum_add_distrib, sum_ite_eq']
  simp

theorem depthSum_attach {a b : α} (ha : p a = none) (w : α → M) (x : α) (n : ℕ) :
    depthSum (Function.update p a (some b)) w x n =
      depthSum p w x n + ∑ k ∈ range n,
        if anc (Function.update p a (some b)) (n - k) a = some x then depthSum p w a k else 0 := by
  unfold depthSum
  have hpoint := fun y => ind_anc_attach (b := b) ha x (w y) n y
  rw [sum_congr rfl fun y _ => hpoint y, sum_add_distrib, sum_comm]
  congr 1
  refine sum_congr rfl fun k _ => ?_
  split_ifs with hx
  · exact sum_congr rfl fun y _ => by simp [hx]
  · simp [hx]

theorem depthSum_detach_self (hp : Acyclic p) (w : α → M) (a : α) (k : ℕ) :
    depthSum (Function.update p a none) w a k = depthSum p w a k :=
  sum_congr rfl fun _ _ => if_congr (anc_detach_eq_self hp) rfl rfl

theorem depthSum_detach {a b : α} (hp : Acyclic p) (ha : p a = some b) (w : α → M) (x : α)
    (n : ℕ) :
    depthSum p w x n = depthSum (Function.update p a none) w x n + ∑ k ∈ range n,
      if anc p (n - k) a = some x then depthSum p w a k else 0 := by
  have hback : Function.update (Function.update p a none) a (some b) = p := by
    rw [Function.update_idem, ← ha, Function.update_eq_self]
  have hattach := depthSum_attach (b := b) (Function.update_self a none p) w x n
  rw [hback] at hattach
  rw [hattach]
  simp only [depthSum_detach_self hp]

end ParentMap

end HiveChain
