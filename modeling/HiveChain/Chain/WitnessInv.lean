import HiveChain.Chain.WitnessSpec

/-!
# HiveChain.Chain.WitnessInv

The accounting invariant of governance votes (`GovInv`): the proxy relation is acyclic, every
account's `proxied_vsf_votes[i]` is the direct power of the accounts `i + 1` proxy steps below it
(`depthSum`), and every witness's total is the governance power of the accounts that vote for it
without a proxy. Voters have no proxy and the vote index has no duplicates.

Every operation that returns keeps it from `HIVE_HARDFORK_0_3` on (`govInv_apply`), so every
sequence of operations does (`govInv_runGovOps`).

The operations change the votes by one call of `adjust_proxied_witness_votes` each, and
`witness_totals_after_adjust` says what such a call does to the witness totals: each voter gains
what its governance power gained, and the account the call starts from gains the whole array.
What the call does to the proxied votes is `pvvShift`, matched against `depthSum` by
`depthSum_update` (a change of direct power) and `depthSum_attach` (a proxy set or cleared).
-/

namespace HiveChain
namespace Chain

open Finset ParentMap EState

variable {Acc Wit : Type} [DecidableEq Acc] [DecidableEq Wit]

/-! ## Sums along a proxy chain -/

theorem sum_chain_eq (p : Acc → Option Acc) (a t : Acc) (delta : ℕ → ℤ) :
    (∑ e ∈ range (maxProxyRecursionDepth + 1 - 0),
      if anc p e a = some t then ∑ i ∈ range (maxProxyRecursionDepth - (0 + e) + 1), delta i
      else 0) =
    (if a = t then ∑ i ∈ range (maxProxyRecursionDepth + 1), delta i else 0) +
      ∑ i ∈ range maxProxyRecursionDepth, pvvShift p a delta 0 t i := by
  have hflip : ∑ i ∈ range maxProxyRecursionDepth, pvvShift p a delta 0 t i =
      ∑ j ∈ range maxProxyRecursionDepth,
        if anc p (j + 1) a = some t then ∑ k ∈ range (maxProxyRecursionDepth - j), delta k
        else 0 := by
    have hshift : ∀ i ∈ range maxProxyRecursionDepth, pvvShift p a delta 0 t i =
        ∑ j ∈ range (i + 1), if anc p (j + 1) a = some t then delta (i - j) else 0 := by
      intro i hi
      rw [pvvShift, if_pos (mem_range.mp hi)]
      rfl
    rw [sum_congr rfl hshift,
      sum_range_diag_flip maxProxyRecursionDepth fun j k => if anc p (j + 1) a = some t then delta k else 0]
    refine sum_congr rfl fun j _ => ?_
    split_ifs <;> simp
  have hrest : ∀ j ∈ range maxProxyRecursionDepth, (if anc p (j + 1) a = some t then
      ∑ i ∈ range (maxProxyRecursionDepth - (0 + (j + 1)) + 1), delta i else 0) =
      if anc p (j + 1) a = some t then ∑ k ∈ range (maxProxyRecursionDepth - j), delta k
      else 0 := by
    intro j hj
    rw [mem_range] at hj
    rw [show maxProxyRecursionDepth - (0 + (j + 1)) + 1 = maxProxyRecursionDepth - j by omega]
  rw [hflip, Nat.sub_zero, sum_range_succ', sum_congr rfl hrest, anc_zero, add_comm]
  simp

theorem pvvShift_single (p : Acc → Option Acc) (a x : Acc) (delta : ℤ) {i : ℕ}
    (hi : i < maxProxyRecursionDepth) :
    pvvShift p a (fun k => if k = 0 then delta else 0) 0 x i =
      if anc p (i + 1) a = some x then delta else 0 := by
  rw [pvvShift, if_pos hi, Nat.sub_zero, sum_eq_single_of_mem i (mem_range.mpr (Nat.lt_succ_self i))]
  · simp
  · intro j hj hji
    rw [mem_range] at hj
    rw [if_neg (by omega : ¬(i - 0 - j = 0))]
    split_ifs <;> rfl

theorem pvvShift_reflect (p : Acc → Option Acc) (a x : Acc) (delta : ℕ → ℤ) {m : ℕ}
    (hm : m < maxProxyRecursionDepth) :
    pvvShift p a delta 0 x m =
      ∑ k ∈ range (m + 1), if anc p (m + 1 - k) a = some x then delta k else 0 := by
  simp only [pvvShift, if_pos hm, Nat.sub_zero]
  rw [← sum_range_reflect]
  refine sum_congr rfl fun j hj => ?_
  rw [mem_range] at hj
  rw [show m + 1 - 1 - j + 1 = m + 1 - j by omega, show m - (m + 1 - 1 - j) = j by omega]

theorem pvvShift_neg (p : Acc → Option Acc) (a x : Acc) (delta : ℕ → ℤ) (d m : ℕ) :
    pvvShift p a (fun i => -delta i) d x m = -pvvShift p a delta d x m := by
  unfold pvvShift
  split_ifs
  · rw [← sum_neg_distrib]
    refine sum_congr rfl fun j _ => ?_
    split_ifs <;> simp
  · simp

theorem pvvShift_self {p : Acc → Option Acc} (hp : Acyclic p) (a : Acc) (delta : ℕ → ℤ)
    (d m : ℕ) : pvvShift p a delta d a m = 0 := by
  unfold pvvShift
  split_ifs
  · exact sum_eq_zero fun j _ => if_neg (hp a j)
  · rfl

omit [DecidableEq Acc] [DecidableEq Wit] in
theorem governanceVotePower_eq_sum (s : GovState Acc Wit) (a : Acc) :
    s.governanceVotePower a = ∑ k ∈ range (maxProxyRecursionDepth + 1), s.voteDelta a k := by
  rw [sum_range_succ', GovState.governanceVotePower, add_comm]
  rfl

omit [DecidableEq Wit] in
theorem governanceVotePower_update_direct (s : GovState Acc Wit) (a t : Acc) (delta : ℤ) :
    ({ s with directVotePower := Function.update s.directVotePower a (s.directVotePower a + delta) } :
      GovState Acc Wit).governanceVotePower t = s.governanceVotePower t + if a = t then delta else 0 := by
  unfold GovState.governanceVotePower
  by_cases ht : t = a
  · subst ht
    simp only [Function.update_self, if_true]
    ring
  · simp only [Function.update_of_ne ht, Ne.symm ht, if_false, add_zero]

variable [Fintype Acc]

/-- The proxy part of the invariant, which does not depend on the witness totals. -/
structure ProxyInv (s : GovState Acc Wit) : Prop where
  acyclic : Acyclic s.proxy
  nodup : s.witnessVotes.Nodup
  voterRoot : ∀ t w, (t, w) ∈ s.witnessVotes → s.proxy t = none
  proxied : ∀ x i, i < maxProxyRecursionDepth →
    s.proxiedVsfVotes x i = depthSum s.proxy s.directVotePower x (i + 1)

/-- The accounting invariant of governance votes: the proxy part, and every witness total is the
power of the accounts without a proxy that vote for it. -/
structure GovInv (s : GovState Acc Wit) : Prop extends ProxyInv s where
  votes : ∀ w, s.votes w =
    ∑ t, if s.proxy t = none ∧ (t, w) ∈ s.witnessVotes then s.governanceVotePower t else 0

theorem sum_voters_eq {p : Acc → Option Acc} {l : List (Acc × Wit)}
    (hroot : ∀ t w, (t, w) ∈ l → p t = none) (f : Acc → ℤ) (w : Wit) :
    (∑ t, if p t = none ∧ (t, w) ∈ l then f t else 0) = ∑ t, if (t, w) ∈ l then f t else 0 := by
  refine sum_congr rfl fun t _ => ?_
  by_cases hv : (t, w) ∈ l
  · simp [hv, hroot t w hv]
  · simp [hv]

theorem sum_voters_append {l : List (Acc × Wit)} {a : Acc} {w : Wit} (hnew : (a, w) ∉ l)
    (f : Acc → ℤ) (w' : Wit) :
    (∑ t, if (t, w') ∈ l ++ [(a, w)] then f t else 0) =
      (∑ t, if (t, w') ∈ l then f t else 0) + if w' = w then f a else 0 := by
  have hpoint : ∀ t, (if (t, w') ∈ l ++ [(a, w)] then f t else 0) =
      (if (t, w') ∈ l then f t else 0) + if t = a ∧ w' = w then f t else 0 := by
    intro t
    by_cases ht : t = a ∧ w' = w
    · obtain ⟨rfl, rfl⟩ := ht
      simp [hnew]
    · have hne : (t, w') ≠ (a, w) := fun e => ht ⟨congrArg Prod.fst e, congrArg Prod.snd e⟩
      simp [hne, ht]
  rw [sum_congr rfl fun t _ => hpoint t, sum_add_distrib]
  by_cases hw : w' = w <;> simp [hw]

theorem sum_voters_erase {l : List (Acc × Wit)} {a : Acc} {w : Wit} (hnd : l.Nodup)
    (hold : (a, w) ∈ l) (f : Acc → ℤ) (w' : Wit) :
    (∑ t, if (t, w') ∈ l.erase (a, w) then f t else 0) =
      (∑ t, if (t, w') ∈ l then f t else 0) - if w' = w then f a else 0 := by
  have hmem : ∀ v, v ∈ l ↔ v ∈ l.erase (a, w) ++ [(a, w)] := by
    intro v
    rw [List.mem_append, hnd.mem_erase_iff, List.mem_singleton]
    by_cases hv : v = (a, w)
    · subst hv
      simp [hold]
    · simp [hv]
  have hback : (∑ t, if (t, w') ∈ l then f t else 0) =
      ∑ t, if (t, w') ∈ l.erase (a, w) ++ [(a, w)] then f t else 0 :=
    sum_congr rfl fun t _ => if_congr (hmem (t, w')) rfl rfl
  rw [hback, sum_voters_append (hnd.not_mem_erase)]
  ring

variable {s s' : GovState Acc Wit}

theorem GovInv.votes_eq (h : GovInv s) (w : Wit) :
    s.votes w = ∑ t, if (t, w) ∈ s.witnessVotes then s.governanceVotePower t else 0 := by
  rw [h.votes w, sum_voters_eq h.voterRoot]

theorem GovInv.voteDelta_eq (h : GovInv s) (a : Acc) {k : ℕ} (hk : k ≤ maxProxyRecursionDepth) :
    s.voteDelta a k = depthSum s.proxy s.directVotePower a k := by
  cases k with
  | zero => simp [GovState.voteDelta]
  | succ i => exact h.proxied a i (by omega)

theorem GovInv.of_eq (h : GovInv s) (hp : s'.proxy = s.proxy)
    (hd : s'.directVotePower = s.directVotePower) (hpvv : s'.proxiedVsfVotes = s.proxiedVsfVotes)
    (hwv : s'.witnessVotes = s.witnessVotes) (hv : s'.votes = s.votes) : GovInv s' := by
  have hg : s'.governanceVotePower = s.governanceVotePower := by
    funext t
    simp only [GovState.governanceVotePower, hd, hpvv]
  refine ⟨⟨?_, ?_, ?_, ?_⟩, ?_⟩
  · rw [hp]; exact h.acyclic
  · rw [hwv]; exact h.nodup
  · rw [hwv, hp]; exact h.voterRoot
  · rw [hpvv, hp, hd]; exact h.proxied
  · rw [hv, hp, hwv, hg]; exact h.votes

omit [DecidableEq Wit] in
theorem proxyInv_init (hp : ∀ a, s.proxy a = none) (hpvv : ∀ a i, s.proxiedVsfVotes a i = 0)
    (hnd : s.witnessVotes.Nodup) : ProxyInv s where
  acyclic y k := by rw [anc_of_root (hp y)]; simp
  nodup := hnd
  voterRoot t _ _ := hp t
  proxied x i _ := by
    rw [hpvv, depthSum]
    exact (sum_eq_zero fun y _ => by rw [anc_of_root (hp y)]; simp).symm

/-! ## One call of `adjust_proxied_witness_votes` -/

theorem witness_totals_after_adjust (hnd : s.witnessVotes.Nodup)
    (hroot : ∀ t w, (t, w) ∈ s.witnessVotes → s.proxy t = none) {a : Acc} {delta : ℕ → ℤ}
    (h : (adjustProxiedWitnessVotes a delta 0).run s = .ok () s') (w : Wit) :
    s'.votes w = s.votes w + ∑ t, if (t, w) ∈ s.witnessVotes then
      (if a = t then ∑ i ∈ range (maxProxyRecursionDepth + 1), delta i else 0) +
        (s'.governanceVotePower t - s.governanceVotePower t) else 0 := by
  have hs' := adjustProxiedWitnessVotes_ok (Nat.zero_le _) h
  have hgain : ∀ t, s'.governanceVotePower t - s.governanceVotePower t =
      ∑ i ∈ range maxProxyRecursionDepth, pvvShift s.proxy a delta 0 t i := by
    intro t
    rw [hs']
    simp only [GovState.governanceVotePower, sum_add_distrib]
    ring
  simp_rw [hgain]
  rw [hs']
  show s.votes w + votesShift s a delta 0 w = _
  congr 1
  unfold votesShift
  refine sum_congr rfl fun t _ => ?_
  rw [count_witnessesOf hnd, sum_chain_eq]
  by_cases hv : (t, w) ∈ s.witnessVotes
  · simp [hv, hroot t w hv]
  · simp [hv]

theorem votes_after_adjust {a : Acc} {delta : ℕ → ℤ} {f : Acc → ℤ}
    (h : (adjustProxiedWitnessVotes a delta 0).run s = .ok () s') (hnd : s.witnessVotes.Nodup)
    (hroot : ∀ t w, (t, w) ∈ s.witnessVotes → s.proxy t = none)
    (hvotes : ∀ w, s.votes w = ∑ t, if (t, w) ∈ s.witnessVotes then f t else 0) (w : Wit) :
    s'.votes w = ∑ t, if (t, w) ∈ s.witnessVotes then
      f t + (if a = t then ∑ i ∈ range (maxProxyRecursionDepth + 1), delta i else 0) +
        (s'.governanceVotePower t - s.governanceVotePower t) else 0 := by
  rw [witness_totals_after_adjust hnd hroot h, hvotes w, ← sum_add_distrib]
  refine sum_congr rfl fun t _ => ?_
  split_ifs <;> ring

theorem hardfork_adjust {a : Acc} {delta : ℕ → ℤ} {d : ℕ} (hd : d ≤ maxProxyRecursionDepth)
    (h : (adjustProxiedWitnessVotes a delta d).run s = .ok () s') : s'.hardfork = s.hardfork := by
  rw [adjustProxiedWitnessVotes_ok hd h]

/-! ## Taking an account out of its chain, and putting it into another -/

theorem govInv_detach (hs : GovInv s) {a : Acc}
    (h : (nullifyProxiedWitnessVotes a).run s = .ok () s') :
    GovInv { s' with proxy := Function.update s'.proxy a none,
                     witnessVotes := s'.witnessVotes.filter fun v => v.1 ≠ a } := by
  have hs' := adjustProxiedWitnessVotes_ok (Nat.zero_le _) h
  have hvotes := votes_after_adjust h hs.nodup hs.voterRoot hs.votes_eq
  have hp' : s'.proxy = s.proxy := by rw [hs']
  have hwv' : s'.witnessVotes = s.witnessVotes := by rw [hs']
  have hd' : s'.directVotePower = s.directVotePower := by rw [hs']
  -- the account keeps its own power: nothing of its chain comes back to it
  have hgov_a : s'.governanceVotePower a = s.governanceVotePower a := by
    simp only [GovState.governanceVotePower, hs', pvvShift_self hs.acyclic, add_zero]
  have htaken : ∀ x i, i < maxProxyRecursionDepth →
      pvvShift s.proxy a (fun k => -s.voteDelta a k) 0 x i =
        -∑ k ∈ range (i + 1), if anc s.proxy (i + 1 - k) a = some x then
          depthSum s.proxy s.directVotePower a k else 0 := by
    intro x i hi
    rw [pvvShift_neg, pvvShift_reflect _ _ _ _ hi]
    congr 1
    refine sum_congr rfl fun k hk => ?_
    rw [hs.voteDelta_eq a (by rw [mem_range] at hk; omega)]
  refine ⟨⟨hp' ▸ hs.acyclic.of_le (update_none_le a), (hwv' ▸ hs.nodup).filter _, ?_, ?_⟩, ?_⟩
  · intro t w hv
    simp only [List.mem_filter, decide_eq_true_eq] at hv
    show Function.update s'.proxy a none t = none
    rw [Function.update_of_ne hv.2, hp']
    exact hs.voterRoot t w (hwv' ▸ hv.1)
  · intro x i hi
    show s'.proxiedVsfVotes x i = depthSum (Function.update s'.proxy a none) s'.directVotePower x (i + 1)
    rw [hp', hd', hs']
    dsimp only
    rw [htaken x i hi, hs.proxied x i hi]
    cases hpa : s.proxy a with
    | none =>
      have hsame : Function.update s.proxy a none = s.proxy := by rw [← hpa, Function.update_eq_self]
      have hnone : (∑ k ∈ range (i + 1), if anc s.proxy (i + 1 - k) a = some x then
          depthSum s.proxy s.directVotePower a k else 0) = 0 := sum_eq_zero fun k hk => by
        rw [mem_range] at hk
        rw [show i + 1 - k = i - k + 1 by omega, anc_of_root hpa]
        simp
      rw [hsame, hnone, neg_zero, add_zero]
    | some b =>
      rw [depthSum_detach hs.acyclic hpa]
      ring
  · intro w
    show s'.votes w = ∑ t, if Function.update s'.proxy a none t = none ∧
      (t, w) ∈ s'.witnessVotes.filter (fun v => v.1 ≠ a) then s'.governanceVotePower t else 0
    rw [hvotes w, hwv']
    refine sum_congr rfl fun t _ => ?_
    have hsum := governanceVotePower_eq_sum s a
    by_cases hta : t = a
    · subst hta
      simp only [List.mem_filter, decide_eq_true_eq, ne_eq, not_true_eq_false, and_false,
        if_false, if_true, sum_neg_distrib, ← hsum, hgov_a]
      split_ifs <;> ring
    · by_cases hv : (t, w) ∈ s.witnessVotes
      · have hcond : Function.update s'.proxy a none t = none ∧
            (t, w) ∈ s.witnessVotes.filter (fun v => v.1 ≠ a) := by
          refine ⟨?_, by simp [hv, hta]⟩
          rw [Function.update_of_ne hta, hp']
          exact hs.voterRoot t w hv
        rw [if_pos hv, if_pos hcond, if_neg (Ne.symm hta)]
        ring
      · rw [if_neg hv, if_neg (by simp [hv])]

theorem govInv_attach (hs : GovInv s) {a b : Acc} (ha : s.proxy a = none)
    (hno : ∀ w, (a, w) ∉ s.witnessVotes) (hb : ∀ k, anc s.proxy k b ≠ some a)
    (h : (adjustProxiedWitnessVotes a (s.voteDelta a) 0).run
      { s with proxy := Function.update s.proxy a (some b) } = .ok () s') : GovInv s' := by
  have hroot : ∀ t w, (t, w) ∈ s.witnessVotes → Function.update s.proxy a (some b) t = none := by
    intro t w hv
    have hta : t ≠ a := fun e => hno w (e ▸ hv)
    rw [Function.update_of_ne hta]
    exact hs.voterRoot t w hv
  have hvotes := votes_after_adjust h (by exact hs.nodup) (by exact hroot) (by exact hs.votes_eq)
  have hs' := adjustProxiedWitnessVotes_ok (Nat.zero_le _) h
  have hp' : s'.proxy = Function.update s.proxy a (some b) := by rw [hs']
  have hwv' : s'.witnessVotes = s.witnessVotes := by rw [hs']
  have hd' : s'.directVotePower = s.directVotePower := by rw [hs']
  refine ⟨⟨hp' ▸ acyclic_update hs.acyclic hb, hwv' ▸ hs.nodup, ?_, ?_⟩, ?_⟩
  · rw [hwv', hp']
    exact hroot
  · intro x i hi
    rw [hp', hd', hs']
    dsimp only
    rw [pvvShift_reflect _ _ _ _ hi, hs.proxied x i hi, depthSum_attach ha]
    congr 1
    refine sum_congr rfl fun k hk => ?_
    rw [hs.voteDelta_eq a (by rw [mem_range] at hk; omega)]
  · intro w
    rw [hvotes w, hp', hwv']
    refine sum_congr rfl fun t _ => ?_
    by_cases hv : (t, w) ∈ s.witnessVotes
    · have hta : a ≠ t := fun e => hno w (e ▸ hv)
      have hcond : Function.update s.proxy a (some b) t = none ∧ (t, w) ∈ s.witnessVotes :=
        ⟨hroot t w hv, hv⟩
      rw [if_pos hv, if_pos hcond, if_neg hta]
      show s.governanceVotePower t + 0 + (s'.governanceVotePower t - s.governanceVotePower t) = _
      ring
    · rw [if_neg hv, if_neg (fun hc => hv hc.2)]

/-! ## The operations -/

section Operations

variable {a : Acc}

theorem govInv_changeDirectVotePower (hs : GovInv s) {delta : ℤ}
    (h : (changeDirectVotePower a delta).run s = .ok () s') :
    GovInv s' ∧ s'.hardfork = s.hardfork := by
  rw [changeDirectVotePower_run, adjustProxiedWitnessVotesShare_eq] at h
  have hvotes := votes_after_adjust h (by exact hs.nodup) (by exact hs.voterRoot)
    (by exact hs.votes_eq)
  have hs' := adjustProxiedWitnessVotes_ok (Nat.zero_le _) h
  have hp' : s'.proxy = s.proxy := by rw [hs']
  have hwv' : s'.witnessVotes = s.witnessVotes := by rw [hs']
  refine ⟨⟨⟨hp' ▸ hs.acyclic, hwv' ▸ hs.nodup, by rw [hp', hwv']; exact hs.voterRoot, ?_⟩, ?_⟩,
    by rw [hs']⟩
  · intro x i hi
    rw [hs']
    dsimp only
    rw [pvvShift_single _ _ _ _ hi, hs.proxied x i hi, depthSum_update]
  · intro w
    have hδ : ∑ i ∈ range (maxProxyRecursionDepth + 1), (if i = 0 then delta else 0) = delta := by
      simp
    dsimp only at hvotes
    rw [hvotes w, hp', hwv', sum_voters_eq hs.voterRoot]
    refine sum_congr rfl fun t _ => ?_
    rw [governanceVotePower_update_direct, hδ]
    split_ifs <;> ring

theorem govInv_accountWitnessVote (hs : GovInv s) (hf : 3 ≤ s.hardfork) {w : Wit}
    {approve : Bool} (h : (accountWitnessVote a w approve).run s = .ok () s') :
    GovInv s' ∧ s'.hardfork = s.hardfork := by
  obtain ⟨hpa, -, ⟨hnew, -, -, rfl⟩ | ⟨hold, -, rfl⟩⟩ := accountWitnessVote_ok hf h
  · -- a new vote: the voter's power goes to the witness
    have hroot : ∀ t w', (t, w') ∈ s.witnessVotes ++ [(a, w)] → s.proxy t = none := by
      intro t w' hv
      rcases List.mem_append.mp hv with hv | hv
      · exact hs.voterRoot t w' hv
      · rw [List.mem_singleton] at hv
        cases hv
        exact hpa
    refine ⟨⟨⟨hs.acyclic, ?_, hroot, hs.proxied⟩, fun w' => ?_⟩, rfl⟩
    · rw [← List.concat_eq_append]
      exact hs.nodup.concat hnew
    · show Function.update s.votes w (s.votes w + s.governanceVotePower a) w' = ∑ t,
        if s.proxy t = none ∧ (t, w') ∈ s.witnessVotes ++ [(a, w)] then s.governanceVotePower t
        else 0
      rw [sum_voters_eq hroot, sum_voters_append hnew, ← hs.votes_eq w']
      by_cases hw : w' = w
      · subst hw
        simp
      · simp [hw]
  · -- a removed vote: the voter's power leaves the witness
    have hroot : ∀ t w', (t, w') ∈ s.witnessVotes.erase (a, w) → s.proxy t = none :=
      fun t w' hv => hs.voterRoot t w' (List.mem_of_mem_erase hv)
    refine ⟨⟨⟨hs.acyclic, hs.nodup.erase _, hroot, hs.proxied⟩, fun w' => ?_⟩, rfl⟩
    show Function.update s.votes w (s.votes w + -s.governanceVotePower a) w' = ∑ t,
      if s.proxy t = none ∧ (t, w') ∈ s.witnessVotes.erase (a, w) then s.governanceVotePower t
      else 0
    rw [sum_voters_eq hroot, sum_voters_erase hs.nodup hold, ← hs.votes_eq w']
    by_cases hw : w' = w
    · subst hw
      simp only [Function.update_self, if_true]
      ring
    · simp [hw]

theorem govInv_accountWitnessProxy (hs : GovInv s) {newProxy : Option Acc}
    (hself : newProxy ≠ some a) (h : (accountWitnessProxy a newProxy).run s = .ok () s') :
    GovInv s' ∧ s'.hardfork = s.hardfork := by
  obtain ⟨-, s₁, hn, ⟨-, hset, rfl⟩ | ⟨p, s₂, rfl, -, hchain, hc, hadj⟩⟩ :=
    accountWitnessProxy_ok h
  all_goals
    have hdet := govInv_detach hs hn
    have hs₁ := adjustProxiedWitnessVotes_ok (Nat.zero_le _) hn
    have hp₁ : s₁.proxy = s.proxy := by rw [hs₁]
    have hwv₁ : s₁.witnessVotes = s.witnessVotes := by rw [hs₁]
    have hf₁ : s₁.hardfork = s.hardfork := hardfork_adjust (Nat.zero_le _) hn
  · -- clearing: an account with a proxy has no votes of its own, so nothing is filtered
    have hkeep : s₁.witnessVotes = s₁.witnessVotes.filter fun v => v.1 ≠ a := by
      refine (List.filter_eq_self.mpr fun v hv => ?_).symm
      have hroot := hs.voterRoot v.1 v.2 (hwv₁ ▸ hv)
      refine decide_eq_true fun e => hset ?_
      rw [hp₁, ← e]
      exact hroot
    exact ⟨hdet.of_eq rfl rfl rfl hkeep rfl, hf₁⟩
  · -- setting: take the account out of its chain, then put it under `p`
    rw [clearWitnessVotes_run] at hc
    injection hc with _ hs₂
    have hp₂ : s₂.proxy = s₁.proxy := by rw [← hs₂]
    have hD : GovInv { s₂ with proxy := Function.update s₂.proxy a none } := by
      subst hs₂
      exact hdet.of_eq rfl rfl rfl rfl rfl
    -- the loop check: the chain above `p` does not come back to `a`
    have hb : ∀ k, anc (Function.update s₂.proxy a none) k p ≠ some a := by
      intro k hk
      cases k with
      | zero => exact hself (congrArg some (Option.some_injective _ hk))
      | succ k =>
        rw [hp₂] at hk
        exact checkProxyChain_ok hchain k a (anc_of_le (update_none_le a) _ _ _ hk)
          List.mem_cons_self
    refine ⟨govInv_attach hD (Function.update_self a none s₂.proxy) (fun w hv => ?_) hb ?_, ?_⟩
    · subst hs₂
      simp at hv
    · simp only [Function.update_idem]
      exact hadj
    · rw [hardfork_adjust (Nat.zero_le _) hadj, ← hs₂]
      exact hf₁

theorem govInv_declineVotingRights (hs : GovInv s)
    (h : (declineVotingRights a).run s = .ok () s') : GovInv s' ∧ s'.hardfork = s.hardfork := by
  obtain ⟨s₁, s₂, hn, hc, rfl⟩ := declineVotingRights_ok h
  rw [clearWitnessVotes_run] at hc
  cases hc
  have hf₁ : s₁.hardfork = s.hardfork := hardfork_adjust (Nat.zero_le _) hn
  exact ⟨(govInv_detach hs hn).of_eq rfl rfl rfl rfl rfl, hf₁⟩

theorem govInv_expireGovernanceVotes (hs : GovInv s)
    (h : (expireGovernanceVotes a).run s = .ok () s') :
    GovInv s' ∧ s'.hardfork = s.hardfork := by
  obtain ⟨s₁, s₂, hn, hc, rfl⟩ := expireGovernanceVotes_ok h
  rw [clearWitnessVotes_run] at hc
  cases hc
  have hf₁ : s₁.hardfork = s.hardfork := hardfork_adjust (Nat.zero_le _) hn
  exact ⟨(govInv_detach hs hn).of_eq rfl rfl rfl rfl rfl, hf₁⟩

end Operations

theorem govInv_apply (hs : GovInv s) (hf : 3 ≤ s.hardfork) {op : GovOp Acc Wit} {u : Unit}
    (h : op.apply.run s = .ok u s') : GovInv s' ∧ s'.hardfork = s.hardfork := by
  cases u
  cases op with
  | accountWitnessProxy a p =>
    dsimp only [GovOp.apply] at h
    obtain ⟨hself, h⟩ := run_throw_if_eq_ok h
    exact govInv_accountWitnessProxy hs hself h
  | accountWitnessVote a w approve => exact govInv_accountWitnessVote hs hf h
  | changeDirectVotePower a delta => exact govInv_changeDirectVotePower hs h
  | declineVotingRights a => exact govInv_declineVotingRights hs h
  | expireGovernanceVotes a => exact govInv_expireGovernanceVotes hs h

theorem govInv_run (hs : GovInv s) (hf : 3 ≤ s.hardfork) (op : GovOp Acc Wit) :
    GovInv (op.run s) ∧ (op.run s).hardfork = s.hardfork := by
  unfold GovOp.run
  split
  · next h => exact govInv_apply hs hf h
  · exact ⟨hs, rfl⟩

theorem govInv_runGovOps (ops : List (GovOp Acc Wit)) (hs : GovInv s) (hf : 3 ≤ s.hardfork) :
    GovInv (runGovOps ops s) ∧ (runGovOps ops s).hardfork = s.hardfork := by
  induction ops generalizing s with
  | nil => exact ⟨hs, rfl⟩
  | cons op ops ih =>
    obtain ⟨hs₁, hf₁⟩ := govInv_run hs hf op
    obtain ⟨hs₂, hf₂⟩ := ih hs₁ (hf₁ ▸ hf)
    exact ⟨hs₂, hf₂.trans hf₁⟩

theorem govInv_retally (hs : ProxyInv s) {accounts : List Acc} (hnd : accounts.Nodup)
    (hall : ∀ a, a ∈ accounts) (h : (retallyWitnessVotes accounts).run s = .ok () s') :
    GovInv s' ∧ s'.hardfork = s.hardfork := by
  have hs' := retallyWitnessVotes_ok hnd hall h
  subst hs'
  refine ⟨⟨⟨hs.acyclic, hs.nodup, hs.voterRoot, hs.proxied⟩, fun w => ?_⟩, rfl⟩
  show (∑ t, if s.proxy t = none then ((s.witnessesOf t).count w : ℤ) * s.governanceVotePower t
    else 0) = ∑ t, if s.proxy t = none ∧ (t, w) ∈ s.witnessVotes then s.governanceVotePower t else 0
  refine sum_congr rfl fun t _ => ?_
  rw [count_witnessesOf hs.nodup]
  by_cases hpt : s.proxy t = none <;> by_cases hv : (t, w) ∈ s.witnessVotes <;> simp [hpt, hv]

/-- From the recount of `HIVE_HARDFORK_0_3` on, whatever operations follow, the proxy relation is
acyclic, every account's proxied votes at depth `i` are the direct power of the accounts `i + 1`
proxy steps below it, and every witness's total is the governance power of the accounts without
a proxy that vote for it. -/
theorem governance_vote_accounting {s s₃ : GovState Acc Wit} {accounts : List Acc}
    (ops : List (GovOp Acc Wit)) (hs : ProxyInv s) (hf : 3 ≤ s.hardfork) (hnd : accounts.Nodup)
    (hall : ∀ a, a ∈ accounts) (h₃ : (retallyWitnessVotes accounts).run s = .ok () s₃) :
    let s' := runGovOps ops s₃
    Acyclic s'.proxy ∧
      (∀ x i, i < maxProxyRecursionDepth → s'.proxiedVsfVotes x i =
        ∑ y, if anc s'.proxy (i + 1) y = some x then s'.directVotePower y else 0) ∧
      ∀ w, s'.votes w = ∑ t, if s'.proxy t = none ∧ (t, w) ∈ s'.witnessVotes then
        s'.governanceVotePower t else 0 := by
  intro s'
  obtain ⟨hs₃, hf₃⟩ := govInv_retally hs hnd hall h₃
  obtain ⟨hinv, -⟩ := govInv_runGovOps ops hs₃ (hf₃ ▸ hf)
  exact ⟨hinv.acyclic, hinv.proxied, hinv.votes⟩

def sampleGov : GovState (Fin 2) (Fin 1) where
  hardfork := 3
  proxy _ := none
  canVote _ := true
  directVotePower a := if a = 0 then 5 else 7
  proxiedVsfVotes _ _ := 0
  witnessesVotedFor a := if a = 0 then 1 else 0
  witnessVotes := [(0, 0)]
  votes _ := 0
  totalVestingShares := 100

def sampleGovOps : List (GovOp (Fin 2) (Fin 1)) :=
  [.accountWitnessVote 1 0 true, .accountWitnessProxy 1 (some 0), .changeDirectVotePower 0 3]

theorem governance_vote_accounting_sample :
    ProxyInv sampleGov ∧ 3 ≤ sampleGov.hardfork ∧ [(0 : Fin 2), 1].Nodup ∧
      (∀ a : Fin 2, a ∈ [0, 1]) ∧
      (retallyWitnessVotes [0, 1]).run sampleGov =
        .ok () (Result.state ((retallyWitnessVotes [0, 1]).run sampleGov)) ∧
      let s' := runGovOps sampleGovOps (Result.state ((retallyWitnessVotes [0, 1]).run sampleGov))
      Acyclic s'.proxy ∧
        (∀ x i, i < maxProxyRecursionDepth → s'.proxiedVsfVotes x i =
          ∑ y, if anc s'.proxy (i + 1) y = some x then s'.directVotePower y else 0) ∧
        ∀ w, s'.votes w = ∑ t, if s'.proxy t = none ∧ (t, w) ∈ s'.witnessVotes then
          s'.governanceVotePower t else 0 := by
  have hP : ProxyInv sampleGov := proxyInv_init (fun _ => rfl) (fun _ _ => rfl) (by decide)
  have hrun : (retallyWitnessVotes [0, 1]).run sampleGov =
      .ok () (Result.state ((retallyWitnessVotes [0, 1]).run sampleGov)) := rfl
  exact ⟨hP, by decide, by decide, by decide, hrun,
    governance_vote_accounting sampleGovOps hP (by decide) (by decide) (by decide) hrun⟩

end Chain
end HiveChain
