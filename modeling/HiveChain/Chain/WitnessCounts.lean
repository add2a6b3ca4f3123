import HiveChain.Chain.WitnessSpec

/-!
# HiveChain.Chain.WitnessCounts

The `witnesses_voted_for` counter of the accounts against their votes in the
`witness_vote_index`. The counter is reset by `clear_witness_votes` only from
`HIVE_HARDFORK_0_6`, and the recount of that hardfork counts only accounts with a proxy; the
forced recount of `HIVE_HARDFORK_0_8` makes it agree, in its `uint16_t`, and every operation from
then on keeps it so.
-/

namespace HiveChain
namespace Chain

open EState

variable {Acc Wit : Type} [DecidableEq Acc] [DecidableEq Wit] {s s' : GovState Acc Wit}

/-! ## Frames: the proxy walks touch only the proxied votes and the witness totals -/

theorem adjustProxiedWitnessVotes_frame {c : Acc} {delta : ℕ → ℤ} {d : ℕ}
    {s s' : GovState Acc Wit} (h : (adjustProxiedWitnessVotes c delta d).run s = .ok () s') :
    ∃ pvv v, s' = { s with proxiedVsfVotes := pvv, votes := v } := by
  rw [EStateM.run, adjustProxiedWitnessVotes] at h
  cases hp : s.proxy c with
  | none =>
    simp only [hp] at h
    exact ⟨s.proxiedVsfVotes, _, adjustWitnessVotes_ok h⟩
  | some q =>
    simp only [hp] at h
    split_ifs at h with hD
    · cases h
      exact ⟨s.proxiedVsfVotes, s.votes, rfl⟩
    · have h' : (adjustProxiedWitnessVotes q delta (d + 1)).run { s with
          proxiedVsfVotes := Function.update s.proxiedVsfVotes q
            (addProxiedVotes (s.proxiedVsfVotes q) delta d) } = .ok () s' := h
      obtain ⟨pvv, v, rfl⟩ := adjustProxiedWitnessVotes_frame h'
      exact ⟨pvv, v, rfl⟩
termination_by maxProxyRecursionDepth - d

theorem nullifyProxiedWitnessVotes_frame {a : Acc}
    (h : (nullifyProxiedWitnessVotes a).run s = .ok () s') :
    ∃ pvv v, s' = { s with proxiedVsfVotes := pvv, votes := v } :=
  adjustProxiedWitnessVotes_frame h

/-! ## The invariant -/

/-- The votes of `a` in the index. -/
def GovState.voteCount (s : GovState Acc Wit) (a : Acc) : Nat :=
  s.witnessVotes.countP fun v => v.1 = a

/-- No vote twice, and `witnesses_voted_for` the number of the account's votes in `uint16_t`. -/
structure VoteCountInv (s : GovState Acc Wit) : Prop where
  nodup : s.witnessVotes.Nodup
  counts : ∀ a, s.witnessesVotedFor a = UInt16.ofNat (s.voteCount a)

omit [DecidableEq Wit] in
theorem length_witnessesOf (s : GovState Acc Wit) (a : Acc) :
    (s.witnessesOf a).length = s.voteCount a := by
  simp [GovState.witnessesOf, GovState.voteCount, List.countP_eq_length_filter]

omit [DecidableEq Wit] in
theorem VoteCountInv.frame (hs : VoteCountInv s) (pvv : Acc → ℕ → ℤ) (v : Wit → ℤ) :
    VoteCountInv { s with proxiedVsfVotes := pvv, votes := v } :=
  ⟨hs.nodup, hs.counts⟩

omit [DecidableEq Wit] in
theorem VoteCountInv.clear (hs : VoteCountInv s) (hf : 6 ≤ s.hardfork) {a : Acc} {u : Unit}
    (h : (clearWitnessVotes a).run s = .ok u s') : VoteCountInv s' ∧ s'.hardfork = s.hardfork := by
  have h6 : s.hasHardfork 6 = true := decide_eq_true hf
  rw [clearWitnessVotes_run, if_pos h6] at h
  cases h
  refine ⟨⟨hs.nodup.filter _, fun b => ?_⟩, rfl⟩
  simp only [GovState.voteCount, List.countP_filter]
  by_cases hb : b = a
  · subst hb
    simp
  · rw [Function.update_of_ne hb, hs.counts b, GovState.voteCount]
    congr 1
    refine List.countP_congr fun v _ => ?_
    constructor
    · intro hv
      simp only [decide_eq_true_eq, Bool.and_eq_true, ne_eq] at hv ⊢
      exact ⟨hv, hv ▸ hb⟩
    · intro hv
      simp only [decide_eq_true_eq, Bool.and_eq_true, ne_eq] at hv ⊢
      exact hv.1

omit [DecidableEq Wit] in
theorem VoteCountInv.append (hs : VoteCountInv s) {a : Acc} {w : Wit} (hnew : (a, w) ∉ s.witnessVotes)
    (votes : Wit → ℤ) :
    VoteCountInv { s with
      witnessVotes := s.witnessVotes ++ [(a, w)]
      votes
      witnessesVotedFor := Function.update s.witnessesVotedFor a (s.witnessesVotedFor a + 1) } := by
  refine ⟨hs.nodup.append (List.nodup_singleton _) (by simpa using hnew), fun b => ?_⟩
  simp only [GovState.voteCount, List.countP_append, List.countP_singleton]
  by_cases hb : b = a
  · subst hb
    simp [hs.counts b, GovState.voteCount, UInt16.ofNat_add]
  · rw [Function.update_of_ne hb, hs.counts b, GovState.voteCount]
    simp [Ne.symm hb]

theorem VoteCountInv.erase (hs : VoteCountInv s) {a : Acc} {w : Wit} (hmem : (a, w) ∈ s.witnessVotes)
    (votes : Wit → ℤ) :
    VoteCountInv { s with
      witnessVotes := s.witnessVotes.erase (a, w)
      votes
      witnessesVotedFor := Function.update s.witnessesVotedFor a (s.witnessesVotedFor a - 1) } := by
  refine ⟨hs.nodup.erase _, fun b => ?_⟩
  simp only [GovState.voteCount, List.countP_erase]
  by_cases hb : b = a
  · subst hb
    have hpos : 1 ≤ s.witnessVotes.countP fun v => v.1 = b :=
      List.countP_pos_iff.mpr ⟨(b, w), hmem, by simp⟩
    simp only [Function.update_self, hs.counts b, GovState.voteCount, hmem, decide_true, and_self,
      if_true]
    rw [UInt16.ofNat_sub hpos]
    rfl
  · rw [Function.update_of_ne hb, hs.counts b, GovState.voteCount]
    simp [Ne.symm hb]

/-! ## The operations keep the counter from `HIVE_HARDFORK_0_6` on -/

section Operations

variable {a : Acc}

theorem accountWitnessVote_counts (hs : VoteCountInv s) (hf : 3 ≤ s.hardfork) {w : Wit}
    {approve : Bool} (h : (accountWitnessVote a w approve).run s = .ok () s') :
    VoteCountInv s' ∧ s'.hardfork = s.hardfork := by
  obtain ⟨-, -, ⟨hnew, -, -, rfl⟩ | ⟨hmem, -, rfl⟩⟩ := accountWitnessVote_ok hf h
  · exact ⟨hs.append hnew _, rfl⟩
  · exact ⟨hs.erase hmem _, rfl⟩

theorem accountWitnessProxy_counts (hs : VoteCountInv s) (hf : 6 ≤ s.hardfork)
    {newProxy : Option Acc} (h : (accountWitnessProxy a newProxy).run s = .ok () s') :
    VoteCountInv s' ∧ s'.hardfork = s.hardfork := by
  obtain ⟨-, s₁, hn, ⟨-, -, rfl⟩ | ⟨p, s₂, -, -, -, hc, hadj⟩⟩ := accountWitnessProxy_ok h <;>
    obtain ⟨pvv, v, rfl⟩ := nullifyProxiedWitnessVotes_frame hn
  · -- cleared: only the proxy changes
    exact ⟨⟨hs.nodup, hs.counts⟩, rfl⟩
  · -- set: the votes are cleared with the counter, then the new chain is walked
    obtain ⟨hs₂, hf₂⟩ := (hs.frame pvv v).clear hf hc
    obtain ⟨pvv', v', rfl⟩ := adjustProxiedWitnessVotes_frame hadj
    exact ⟨⟨hs₂.nodup, hs₂.counts⟩, hf₂⟩

theorem changeDirectVotePower_counts (hs : VoteCountInv s) {delta : ℤ}
    (h : (changeDirectVotePower a delta).run s = .ok () s') :
    VoteCountInv s' ∧ s'.hardfork = s.hardfork := by
  rw [changeDirectVotePower_run, adjustProxiedWitnessVotesShare_eq] at h
  obtain ⟨pvv, v, rfl⟩ := adjustProxiedWitnessVotes_frame h
  exact ⟨⟨hs.nodup, hs.counts⟩, rfl⟩

theorem declineVotingRights_counts (hs : VoteCountInv s) (hf : 6 ≤ s.hardfork)
    (h : (declineVotingRights a).run s = .ok () s') :
    VoteCountInv s' ∧ s'.hardfork = s.hardfork := by
  obtain ⟨s₁, s₂, hn, hc, rfl⟩ := declineVotingRights_ok h
  obtain ⟨pvv, v, rfl⟩ := nullifyProxiedWitnessVotes_frame hn
  obtain ⟨hs₂, hf₂⟩ := (hs.frame pvv v).clear hf hc
  exact ⟨⟨hs₂.nodup, hs₂.counts⟩, hf₂⟩

theorem expireGovernanceVotes_counts (hs : VoteCountInv s) (hf : 6 ≤ s.hardfork)
    (h : (expireGovernanceVotes a).run s = .ok () s') :
    VoteCountInv s' ∧ s'.hardfork = s.hardfork := by
  obtain ⟨s₁, s₂, hn, hc, rfl⟩ := expireGovernanceVotes_ok h
  obtain ⟨pvv, v, rfl⟩ := nullifyProxiedWitnessVotes_frame hn
  obtain ⟨hs₂, hf₂⟩ := (hs.frame pvv v).clear hf hc
  exact ⟨⟨hs₂.nodup, hs₂.counts⟩, hf₂⟩

end Operations

theorem GovOp.apply_counts (hs : VoteCountInv s) (hf : 6 ≤ s.hardfork) {op : GovOp Acc Wit}
    {u : Unit} (h : op.apply.run s = .ok u s') : VoteCountInv s' ∧ s'.hardfork = s.hardfork := by
  cases u
  cases op with
  | accountWitnessProxy a p =>
    dsimp only [GovOp.apply] at h
    obtain ⟨-, h⟩ := run_throw_if_eq_ok h
    exact accountWitnessProxy_counts hs hf h
  | accountWitnessVote a w approve => exact accountWitnessVote_counts hs (by omega) h
  | changeDirectVotePower a delta => exact changeDirectVotePower_counts hs h
  | declineVotingRights a => exact declineVotingRights_counts hs hf h
  | expireGovernanceVotes a => exact expireGovernanceVotes_counts hs hf h

theorem GovOp.run_counts (op : GovOp Acc Wit) (hs : VoteCountInv s) (hf : 6 ≤ s.hardfork) :
    VoteCountInv (op.run s) ∧ (op.run s).hardfork = s.hardfork := by
  unfold GovOp.run
  split
  · next h => exact GovOp.apply_counts hs hf h
  · exact ⟨hs, rfl⟩

/-! ## The recounts -/

/-- What `retally_witness_vote_counts` sets an account's counter to. -/
def GovState.retalliedCount (s : GovState Acc Wit) (force : Bool) (a : Acc) : UInt16 :=
  if force || (s.proxy a).isSome then UInt16.ofNat (s.voteCount a) else 0

omit [DecidableEq Wit] in
theorem retallyWitnessVoteCounts_ok {accounts : List Acc} {forced : Bool} {u : Unit}
    (h : (retallyWitnessVoteCounts accounts forced).run s = .ok u s') :
    s' = { s with witnessesVotedFor := fun a =>
      if a ∈ accounts then s.retalliedCount forced a else s.witnessesVotedFor a } := by
  cases u
  refine forM_run_ok_inv _ (fun pre t => t = { s with
      witnessesVotedFor := fun a => if a ∈ pre then s.retalliedCount forced a
        else s.witnessesVotedFor a }) accounts ?_ ?_ h
  · rintro pre x post t t' - ht hx
    obtain ⟨t₀, t₁, h₀, h₁⟩ := run_bind_eq_ok hx
    cases h₀
    -- the value the loop computes is the one of the unchanged index
    have hval : (if forced || (t.proxy x).isSome then
        UInt16.ofNat ((t.witnessesOf x).length) else 0) = s.retalliedCount forced x := by
      rw [length_witnessesOf, ht]
      rfl
    dsimp only at h₁
    rw [hval] at h₁
    subst ht
    split at h₁
    · cases h₁
      dsimp only
      congr 1
      funext b
      by_cases hb : b = x
      · subst hb
        simp
      · simp [hb]
    · rename_i hsame
      cases h₁
      congr 1
      funext b
      by_cases hb : b = x
      · subst hb
        rw [not_not] at hsame
        by_cases hbpre : b ∈ pre
        · simp [hbpre]
        · simp only [hbpre, if_false] at hsame
          simp [hbpre, hsame]
      · simp [hb]
  · simp

omit [DecidableEq Wit] in
theorem retallyWitnessVoteCounts_force {accounts : List Acc} (hall : ∀ a, a ∈ accounts)
    (hnd : s.witnessVotes.Nodup) {u : Unit}
    (h : (retallyWitnessVoteCounts accounts true).run s = .ok u s') :
    VoteCountInv s' ∧ s'.hardfork = s.hardfork := by
  rw [retallyWitnessVoteCounts_ok h]
  exact ⟨⟨hnd, fun a => by simp [hall a, GovState.retalliedCount, GovState.voteCount]⟩, rfl⟩

end Chain
end HiveChain
