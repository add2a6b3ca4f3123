import Mathlib.Algebra.BigOperators.Intervals
import Mathlib.Algebra.Order.BigOperators.Group.Finset
import Mathlib.Tactic.Ring
import HiveChain.Lib.ParentMap
import HiveChain.Chain.Witness

/-!
# HiveChain.Chain.WitnessSpec

What each vote function leaves behind when it returns.

* `adjustWitnessVotes_ok`: every witness of the account moves by `delta`, once per vote.
* `adjustProxiedWitnessVotes_ok`: the proxied votes move by `pvvShift` (the `delta` array laid
  along the proxy chain, one depth further at each step) and the witness totals by `votesShift`
  (the part of the array in reach of the account at the top of the chain).
* `adjustProxiedWitnessVotesShare_eq`: the overload with one `share_type` is the array
  overload with that share at depth `0`.
* `checkProxyChain_ok`: when the loop check passes, no account of the chain of the new proxy is
  in the initial set.
-/

namespace HiveChain
namespace Chain

open Finset ParentMap EState

variable {Acc Wit : Type} [DecidableEq Wit]

/-! ## Witness totals -/

theorem adjustWitnessVote_ok {w : Wit} {delta : Int} {s s' : GovState Acc Wit}
    (h : (adjustWitnessVote w delta).run s = .ok () s') :
    s' = { s with votes := Function.update s.votes w (s.votes w + delta) } := by
  simp only [EStateM.run, adjustWitnessVote] at h
  split_ifs at h
  cases h
  rfl

theorem forM_adjustWitnessVote_ok {l : List Wit} {delta : Int} {s s' : GovState Acc Wit}
    (h : (l.forM fun w => adjustWitnessVote w delta).run s = .ok () s') :
    s' = { s with votes := fun w => s.votes w + (l.count w : Int) * delta } := by
  refine forM_run_ok_inv _
    (fun pre s' => s' = { s with votes := fun w => s.votes w + (pre.count w : Int) * delta })
    _ ?_ (by simp) h
  rintro pre x post s₂ s₃ - rfl hx
  rw [adjustWitnessVote_ok hx]
  congr 1
  funext w
  by_cases hw : w = x
  · subst hw
    simp only [Function.update_self, List.count_append, List.count_singleton_self]
    push_cast
    ring
  · show Function.update _ x _ w = _
    rw [Function.update_of_ne hw]
    simp [List.count_append, Ne.symm hw]

variable [DecidableEq Acc]

theorem adjustWitnessVotes_ok {a : Acc} {delta : Int} {s s' : GovState Acc Wit}
    (h : (adjustWitnessVotes a delta).run s = .ok () s') :
    s' = { s with votes := fun w => s.votes w + ((s.witnessesOf a).count w : Int) * delta } := by
  obtain ⟨s₀, s₁, h₀, h₁⟩ := run_bind_eq_ok h
  cases h₀
  exact forM_adjustWitnessVote_ok h₁

theorem count_witnessesOf {s : GovState Acc Wit} (hnd : s.witnessVotes.Nodup) (a : Acc)
    (w : Wit) : (s.witnessesOf a).count w = if (a, w) ∈ s.witnessVotes then 1 else 0 := by
  unfold GovState.witnessesOf
  have hnd' : ((s.witnessVotes.filter fun v => v.1 = a).map Prod.snd).Nodup := by
    refine (List.nodup_map_iff_inj_on (hnd.filter _)).mpr ?_
    intro x hx y hy hxy
    simp only [List.mem_filter, decide_eq_true_eq] at hx hy
    exact Prod.ext (hx.2.trans hy.2.symm) hxy
  have hmem : w ∈ (s.witnessVotes.filter fun v => v.1 = a).map Prod.snd ↔
      (a, w) ∈ s.witnessVotes := by
    simp
  by_cases h : (a, w) ∈ s.witnessVotes
  · rw [if_pos h, List.count_eq_one_of_mem hnd' (hmem.mpr h)]
  · rw [if_neg h, List.count_eq_zero_of_not_mem (mt hmem.mp h)]

/-! ## The proxy modifier -/

theorem foldl_update_add (delta : ℕ → ℤ) (d : ℕ) : ∀ (l : List ℕ) (v : ℕ → ℤ) (m : ℕ),
    (l.foldl (fun v i => Function.update v (i + d) (v (i + d) + delta i)) v) m =
      v m + (l.map fun i => if i + d = m then delta i else 0).sum
  | [], v, m => by simp
  | i :: l, v, m => by
    rw [List.foldl_cons, foldl_update_add delta d l, List.map_cons, List.sum_cons]
    by_cases hm : i + d = m
    · subst hm
      simp only [Function.update_self, if_true]
      ring
    · simp [Function.update_of_ne (Ne.symm hm), hm]

theorem addProxiedVotes_apply (votes delta : ℕ → ℤ) (d m : ℕ) :
    addProxiedVotes votes delta d m =
      votes m + if d ≤ m ∧ m < maxProxyRecursionDepth then delta (m - d) else 0 := by
  rw [addProxiedVotes, foldl_update_add, List.map_reverse, List.sum_reverse,
    ← List.sum_toFinset _ List.nodup_range, List.toFinset_range]
  congr 1
  by_cases hm : d ≤ m ∧ m < maxProxyRecursionDepth
  · rw [if_pos hm, sum_eq_single_of_mem (m - d) (mem_range.mpr (by omega))]
    · rw [if_pos (by omega)]
    · intro i _ hi
      rw [if_neg (by omega)]
  · rw [if_neg hm]
    refine sum_eq_zero fun i hi => if_neg ?_
    rw [mem_range] at hi
    omega

/-! ## Along the proxy chain -/

/-- The proxied votes `adjust_proxied_witness_votes` adds, started from `c` at recursion depth
`d`: the account `j + 1` steps above `c` gets `delta` shifted by `d + j`. -/
def pvvShift (p : Acc → Option Acc) (c : Acc) (delta : ℕ → ℤ) (d : ℕ) (x : Acc) (m : ℕ) : ℤ :=
  if m < maxProxyRecursionDepth then
    ∑ j ∈ range (m + 1 - d), if anc p (j + 1) c = some x then delta (m - d - j) else 0
  else 0

/-- What the witness totals get, started from `c` at recursion depth `d`: the account at the top
of the chain, `e` steps above `c`, adjusts each of its votes by the entries of `delta` in
reach. -/
def votesShift [Fintype Acc] (s : GovState Acc Wit) (c : Acc) (delta : ℕ → ℤ) (d : ℕ)
    (w : Wit) : ℤ :=
  ∑ t, if s.proxy t = none then
    ((s.witnessesOf t).count w : ℤ) * ∑ e ∈ range (maxProxyRecursionDepth + 1 - d),
      if anc s.proxy e c = some t then
        ∑ i ∈ range (maxProxyRecursionDepth - (d + e) + 1), delta i
      else 0
  else 0

section Shift

variable {p : Acc → Option Acc} {c q : Acc} {delta : ℕ → ℤ} {d : ℕ}

theorem pvvShift_root (hc : p c = none) (x : Acc) (m : ℕ) : pvvShift p c delta d x m = 0 := by
  unfold pvvShift
  split_ifs
  · exact sum_eq_zero fun j _ => by rw [anc_of_root hc]; simp
  · rfl

theorem pvvShift_stop (hd : maxProxyRecursionDepth ≤ d) (x : Acc) (m : ℕ) :
    pvvShift p c delta d x m = 0 := by
  unfold pvvShift
  split_ifs with hm
  · rw [show m + 1 - d = 0 by omega, sum_range_zero]
  · rfl

theorem pvvShift_step (hc : p c = some q) (x : Acc) (m : ℕ) :
    pvvShift p c delta d x m =
      (if x = q ∧ d ≤ m ∧ m < maxProxyRecursionDepth then delta (m - d) else 0) +
        pvvShift p q delta (d + 1) x m := by
  unfold pvvShift
  by_cases hm : m < maxProxyRecursionDepth
  swap
  · simp [hm]
  by_cases hdm : d ≤ m
  · rw [if_pos hm, if_pos hm, show m + 1 - d = m - d + 1 by omega,
      sum_range_succ', add_comm, show m + 1 - (d + 1) = m - d by omega]
    have hfirst : (if anc p (0 + 1) c = some x then delta (m - d - 0) else 0) =
        if x = q then delta (m - d) else 0 := by
      rw [anc_one, hc]
      by_cases hx : x = q
      · subst hx; simp
      · simp [Ne.symm hx, hx]
    have hrest : ∀ j ∈ range (m - d), (if anc p (j + 1 + 1) c = some x then
        delta (m - d - (j + 1)) else 0) =
        if anc p (j + 1) q = some x then delta (m - (d + 1) - j) else 0 := fun j _ => by
      rw [anc_succ p (j + 1), hc, Option.bind_some, show m - d - (j + 1) = m - (d + 1) - j by omega]
    rw [hfirst, sum_congr rfl hrest]
    by_cases hx : x = q <;> simp [hx, hdm, hm]
  · rw [if_pos hm, if_pos hm, show m + 1 - d = 0 by omega, show m + 1 - (d + 1) = 0 by omega]
    simp [hdm]

variable [Fintype Acc] {s : GovState Acc Wit}

theorem votesShift_root (hc : s.proxy c = none) (hd : d ≤ maxProxyRecursionDepth) (w : Wit) :
    votesShift s c delta d w =
      ((s.witnessesOf c).count w : ℤ) * ∑ i ∈ range (maxProxyRecursionDepth - d + 1), delta i := by
  unfold votesShift
  have hinner : ∀ t, (∑ e ∈ range (maxProxyRecursionDepth + 1 - d),
      if anc s.proxy e c = some t then
        ∑ i ∈ range (maxProxyRecursionDepth - (d + e) + 1), delta i else 0) =
      if c = t then ∑ i ∈ range (maxProxyRecursionDepth - d + 1), delta i else 0 := by
    intro t
    rw [show maxProxyRecursionDepth + 1 - d = maxProxyRecursionDepth - d + 1 by omega,
      sum_range_succ']
    have hzero : ∀ e ∈ range (maxProxyRecursionDepth - d), (if anc s.proxy (e + 1) c = some t then
        ∑ i ∈ range (maxProxyRecursionDepth - (d + (e + 1)) + 1), delta i else 0) = 0 :=
      fun e _ => by rw [anc_of_root hc]; simp
    rw [sum_congr rfl hzero, sum_const_zero, zero_add, anc_zero, Nat.add_zero]
    simp
  simp_rw [hinner]
  rw [sum_eq_single c (fun t _ ht => by simp [Ne.symm ht]) (by simp)]
  simp [hc]

theorem votesShift_stop (hc : s.proxy c ≠ none) (hd : maxProxyRecursionDepth ≤ d) (w : Wit) :
    votesShift s c delta d w = 0 := by
  unfold votesShift
  refine sum_eq_zero fun t _ => ?_
  split_ifs with ht
  · -- only `e = 0` is in range, and `c` is not a top account
    have hinner : ∀ e ∈ range (maxProxyRecursionDepth + 1 - d), (if anc s.proxy e c = some t then
        ∑ i ∈ range (maxProxyRecursionDepth - (d + e) + 1), delta i else 0) = 0 := by
      intro e he
      rw [mem_range] at he
      rw [show e = 0 by omega, anc_zero, if_neg]
      rintro ⟨⟩
      exact hc ht
    rw [sum_congr rfl hinner, sum_const_zero, mul_zero]
  · rfl

theorem votesShift_step (hc : s.proxy c = some q) (hd : d < maxProxyRecursionDepth) (w : Wit) :
    votesShift s c delta d w = votesShift s q delta (d + 1) w := by
  unfold votesShift
  refine sum_congr rfl fun t _ => ?_
  split_ifs with ht
  · congr 1
    rw [show maxProxyRecursionDepth + 1 - d = maxProxyRecursionDepth + 1 - (d + 1) + 1 by omega,
      sum_range_succ', anc_zero, if_neg (by rintro ⟨⟩; rw [hc] at ht; cases ht), add_zero]
    refine sum_congr rfl fun e _ => ?_
    rw [anc_succ, hc, Option.bind_some, show d + (e + 1) = d + 1 + e by omega]
  · rfl

end Shift

theorem adjustProxiedWitnessVotes_ok [Fintype Acc] {c : Acc} {delta : ℕ → ℤ} {d : ℕ}
    {s s' : GovState Acc Wit} (hd : d ≤ maxProxyRecursionDepth)
    (h : (adjustProxiedWitnessVotes c delta d).run s = .ok () s') :
    s' = { s with proxiedVsfVotes := fun x m => s.proxiedVsfVotes x m + pvvShift s.proxy c delta d x m,
                  votes := fun w => s.votes w + votesShift s c delta d w } := by
  rw [EStateM.run, adjustProxiedWitnessVotes] at h
  cases hp : s.proxy c with
  | none =>
    simp only [hp] at h
    rw [adjustWitnessVotes_ok h]
    congr 1
    · funext x m
      rw [pvvShift_root hp, add_zero]
    · funext w
      rw [votesShift_root hp hd]
  | some q =>
    simp only [hp] at h
    split_ifs at h with hD
    · -- past the depth limit nothing moves
      cases h
      have hpvv : (fun x m => s.proxiedVsfVotes x m + pvvShift s.proxy c delta d x m) =
          s.proxiedVsfVotes := by
        funext x m
        rw [pvvShift_stop hD, add_zero]
      have hvotes : (fun w => s.votes w + votesShift s c delta d w) = s.votes := by
        funext w
        rw [votesShift_stop (by rw [hp]; exact Option.some_ne_none q) hD, add_zero]
      rw [hpvv, hvotes]
    · -- the proxy gets the shifted array, then the rest of the chain from `q`
      rw [adjustProxiedWitnessVotes_ok (by omega) h]
      congr 1
      · funext x m
        rw [pvvShift_step hp]
        by_cases hx : x = q
        · subst hx
          simp [addProxiedVotes_apply, add_assoc]
        · simp [hx]
      · funext w
        exact congrArg (s.votes w + ·) (votesShift_step hp (by omega) w).symm
termination_by maxProxyRecursionDepth - d

theorem adjustProxiedWitnessVotesShare_eq (c : Acc) (delta : ℤ) (d : ℕ) :
    (adjustProxiedWitnessVotesShare c delta d : EStateM String (GovState Acc Wit) Unit) =
      adjustProxiedWitnessVotes c (fun i => if i = 0 then delta else 0) d := by
  funext s
  rw [adjustProxiedWitnessVotesShare, adjustProxiedWitnessVotes]
  cases hp : s.proxy c with
  | none =>
    rw [sum_ite_eq' (range _) 0 fun _ => delta, if_pos (mem_range.mpr (Nat.succ_pos _))]
  | some q =>
    split_ifs with hD
    · rfl
    · -- the two modifiers add the same votes: the array is `0` past depth `0`
      have hmod : Function.update (s.proxiedVsfVotes q) d (s.proxiedVsfVotes q d + delta) =
          addProxiedVotes (s.proxiedVsfVotes q) (fun i => if i = 0 then delta else 0) d := by
        funext m
        rw [addProxiedVotes_apply]
        by_cases hm : m = d
        · subst hm
          simp [show m < maxProxyRecursionDepth by omega]
        · rw [Function.update_of_ne hm]
          split_ifs <;> omega
      dsimp only
      rw [adjustProxiedWitnessVotesShare_eq q delta (d + 1), hmod]
termination_by maxProxyRecursionDepth - d

/-! ## The loop check -/

theorem checkProxyChain_ok {p : Acc → Option Acc} {chain : List Acc} {c : Acc}
    (h : checkProxyChain p chain c = .ok ()) : ∀ k z, anc p (k + 1) c = some z → z ∉ chain := by
  rw [checkProxyChain] at h
  cases hp : p c with
  | none =>
    intro k z hz
    rw [anc_of_root hp] at hz
    cases hz
  | some next =>
    simp only [hp] at h
    split_ifs at h with hmem hlen
    have ih := checkProxyChain_ok h
    intro k z hz
    cases k with
    | zero =>
      rw [anc_one, hp] at hz
      cases hz
      exact hmem
    | succ k =>
      rw [anc_succ, hp, Option.bind_some] at hz
      exact fun hz' => ih k z hz (List.mem_cons_of_mem next hz')
termination_by maxProxyRecursionDepth + 1 - chain.length

/-! ## The evaluators

What each evaluator did when it returned: its guards, and its state as the calls it makes
leave it. -/

section Evaluators

variable {a : Acc} {s s' : GovState Acc Wit}

omit [DecidableEq Wit] in
theorem clearWitnessVotes_run (a : Acc) (s : GovState Acc Wit) :
    (clearWitnessVotes a).run s = .ok ⟨⟩
      { s with witnessVotes := s.witnessVotes.filter fun v => v.1 ≠ a,
               witnessesVotedFor := if s.hasHardfork 6 then Function.update s.witnessesVotedFor a 0
                 else s.witnessesVotedFor } := by
  rw [clearWitnessVotes, run_modify]
  dsimp only
  split_ifs <;> rfl

theorem accountWitnessProxy_ok {newProxy : Option Acc}
    (h : (accountWitnessProxy a newProxy).run s = .ok () s') :
    s.canVote a = true ∧ ∃ s₁, (nullifyProxiedWitnessVotes a).run s = .ok () s₁ ∧
      ((newProxy = none ∧ s₁.proxy a ≠ none ∧
          s' = { s₁ with proxy := Function.update s₁.proxy a none }) ∨
        ∃ p s₂, newProxy = some p ∧ s₁.proxy a ≠ some p ∧
          checkProxyChain s₁.proxy [a, p] p = .ok () ∧ (clearWitnessVotes a).run s₁ = .ok () s₂ ∧
          (adjustProxiedWitnessVotes a (s₂.voteDelta a) 0).run
            { s₂ with proxy := Function.update s₂.proxy a (some p) } = .ok () s') := by
  obtain ⟨s₀, s₁, h₀, h₁⟩ := run_bind_eq_ok h
  cases h₀
  dsimp only at h₁
  obtain ⟨hcan, h₂⟩ := run_guard_eq_ok h₁
  obtain ⟨⟨⟩, s₁, hn, h₃⟩ := run_bind_eq_ok h₂
  refine ⟨hcan, s₁, hn, ?_⟩
  cases newProxy with
  | none =>
    obtain ⟨s₄, s₅, h₄, h₅⟩ := run_bind_eq_ok h₃
    cases h₄
    obtain ⟨hne, h₆⟩ := run_throw_if_eq_ok h₅
    cases h₆
    exact .inl ⟨rfl, hne, rfl⟩
  | some p =>
    obtain ⟨s₄, s₅, h₄, h₅⟩ := run_bind_eq_ok h₃
    cases h₄
    obtain ⟨hne, h₆⟩ := run_throw_if_eq_ok h₅
    split at h₆
    · obtain ⟨_, _, he, -⟩ := run_bind_eq_ok h₆
      cases he
    · -- the loop check passed: clear the votes, set the proxy, add the votes on the new chain
      rename_i hchain
      obtain ⟨⟨⟩, s₂, hc, h₇⟩ := run_bind_eq_ok h₆
      obtain ⟨⟨⟩, s₃, hm, h₈⟩ := run_bind_eq_ok h₇
      cases hm
      obtain ⟨s₉, s₁₀, hg, h₉⟩ := run_bind_eq_ok h₈
      cases hg
      exact .inr ⟨p, s₂, rfl, hne, hchain, hc, h₉⟩

theorem accountWitnessVote_ok {w : Wit} {approve : Bool} (hf : 3 ≤ s.hardfork)
    (h : (accountWitnessVote a w approve).run s = .ok () s') :
    s.proxy a = none ∧ s.canVote a = true ∧
      (((a, w) ∉ s.witnessVotes ∧ approve = true ∧
          (s.witnessesVotedFor a).toNat < maxAccountWitnessVotes ∧
          s' = { s with
            witnessVotes := s.witnessVotes ++ [(a, w)],
            votes := Function.update s.votes w (s.votes w + s.governanceVotePower a),
            witnessesVotedFor :=
              Function.update s.witnessesVotedFor a (s.witnessesVotedFor a + 1) }) ∨
        ((a, w) ∈ s.witnessVotes ∧ approve = false ∧
          s' = { s with
            witnessVotes := s.witnessVotes.erase (a, w),
            votes := Function.update s.votes w (s.votes w + -s.governanceVotePower a),
            witnessesVotedFor :=
              Function.update s.witnessesVotedFor a (s.witnessesVotedFor a - 1) })) := by
  have h2 : s.hasHardfork 2 = true := decide_eq_true (by omega)
  have h3 : s.hasHardfork 3 = true := decide_eq_true hf
  obtain ⟨s₀, s₁, h₀, h₁⟩ := run_bind_eq_ok h
  cases h₀
  dsimp only at h₁
  obtain ⟨hpx, h₂⟩ := run_throw_if_eq_ok h₁
  obtain ⟨hcan, h₃⟩ := run_guard_eq_ok h₂
  refine ⟨Option.not_isSome_iff_eq_none.mp hpx, hcan, ?_⟩
  by_cases hnew : (a, w) ∈ s.witnessVotes
  · -- an existing vote
    rw [if_neg (not_not.mpr hnew)] at h₃
    obtain ⟨happ, h₄⟩ := run_throw_if_eq_ok h₃
    rw [if_pos h2, if_pos h3] at h₄
    obtain ⟨⟨⟩, s₂, hadj, h₅⟩ := run_bind_eq_ok h₄
    cases adjustWitnessVote_ok hadj
    obtain ⟨⟨⟩, s₃, hm, h₆⟩ := run_bind_eq_ok h₅
    cases hm
    cases h₆
    exact .inr ⟨hnew, by simpa using happ, rfl⟩
  · -- a new vote
    rw [if_pos hnew] at h₃
    obtain ⟨happ, h₄⟩ := run_guard_eq_ok h₃
    rw [if_pos h2] at h₄
    obtain ⟨hmax, h₅⟩ := run_guard_eq_ok h₄
    obtain ⟨⟨⟩, s₂, hm, h₆⟩ := run_bind_eq_ok h₅
    cases hm
    rw [if_pos h3] at h₆
    obtain ⟨⟨⟩, s₃, hadj, h₇⟩ := run_bind_eq_ok h₆
    cases adjustWitnessVote_ok hadj
    cases h₇
    exact .inl ⟨hnew, happ, hmax, rfl⟩

theorem changeDirectVotePower_run (a : Acc) (delta : ℤ) (s : GovState Acc Wit) :
    (changeDirectVotePower a delta).run s = (adjustProxiedWitnessVotesShare a delta 0).run
      { s with directVotePower :=
          Function.update s.directVotePower a (s.directVotePower a + delta) } := rfl

theorem declineVotingRights_ok (h : (declineVotingRights a).run s = .ok () s') :
    ∃ s₁ s₂, (nullifyProxiedWitnessVotes a).run s = .ok () s₁ ∧
      (clearWitnessVotes a).run s₁ = .ok () s₂ ∧
      s' = { s₂ with canVote := Function.update s₂.canVote a false,
                     proxy := Function.update s₂.proxy a none } := by
  obtain ⟨⟨⟩, s₁, hn, h₁⟩ := run_bind_eq_ok h
  obtain ⟨⟨⟩, s₂, hc, h₂⟩ := run_bind_eq_ok h₁
  cases h₂
  exact ⟨s₁, s₂, hn, hc, rfl⟩

theorem expireGovernanceVotes_ok (h : (expireGovernanceVotes a).run s = .ok () s') :
    ∃ s₁ s₂, (nullifyProxiedWitnessVotes a).run s = .ok () s₁ ∧
      (clearWitnessVotes a).run s₁ = .ok () s₂ ∧
      s' = { s₂ with proxy := Function.update s₂.proxy a none } := by
  obtain ⟨⟨⟩, s₁, hn, h₁⟩ := run_bind_eq_ok h
  obtain ⟨⟨⟩, s₂, hc, h₂⟩ := run_bind_eq_ok h₁
  cases h₂
  exact ⟨s₁, s₂, hn, hc, rfl⟩

theorem retallyWitnessVotes_ok [Fintype Acc] {accounts : List Acc} (hnd : accounts.Nodup)
    (hall : ∀ a, a ∈ accounts) (h : (retallyWitnessVotes accounts).run s = .ok () s') :
    s' = { s with votes := fun w => ∑ t, if s.proxy t = none then
      ((s.witnessesOf t).count w : ℤ) * s.governanceVotePower t else 0 } := by
  obtain ⟨⟨⟩, s₁, h₁, h₂⟩ := run_bind_eq_ok h
  cases h₁
  let tally : Acc → Wit → ℤ := fun t w =>
    if s.proxy t = none then ((s.witnessesOf t).count w : ℤ) * s.governanceVotePower t else 0
  -- the loop over the account index, the accounts done so far counted
  have hloop := forM_run_ok_inv _
    (fun pre s' => s' = { s with votes := fun w => (pre.map fun t => tally t w).sum })
    _ ?step rfl h₂
  · rw [hloop]
    congr 1
    funext w
    have huniv : accounts.toFinset = univ := eq_univ_iff_forall.mpr fun a => List.mem_toFinset.mpr (hall a)
    rw [← List.sum_toFinset _ hnd, huniv]
  · rintro pre x post s₂ s₃ - rfl hx
    obtain ⟨s₄, s₅, h₄, h₅⟩ := run_bind_eq_ok hx
    cases h₄
    dsimp only at h₅
    by_cases hpx : s.proxy x = none
    · -- a top account adds its power to each of its witnesses
      rw [hpx] at h₅
      rw [forM_adjustWitnessVote_ok h₅]
      congr 1
      funext w
      simp [tally, hpx, GovState.witnessesOf, GovState.governanceVotePower]
    · -- an account with a proxy is skipped
      obtain ⟨q, hq⟩ := Option.ne_none_iff_exists'.mp hpx
      rw [hq] at h₅
      cases h₅
      congr 1
      funext w
      simp [tally, hq]

end Evaluators

end Chain
end HiveChain
