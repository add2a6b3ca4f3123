import HiveChain.Chain.Savings

/-!
# HiveChain.Chain.SavingsSpec

What the savings functions do to the withdrawal index and to `savings_withdraw_requests`, and
that the counter keeps counting each account's withdrawals over any sequence of operations.
-/

namespace HiveChain
namespace Chain

open EState KeyedList

variable {Acc : Type} [DecidableEq Acc] {s s' : SavingsState Acc}

/-- The withdrawal index and its counter, all the invariant reads. -/
def SavingsState.index (s : SavingsState Acc) : List (SavingsWithdraw Acc) × (Acc → Nat) :=
  (s.withdraws, s.savingsWithdrawRequests)

/-! ## The balances leave the index alone -/

theorem savingsOnChain_adjustBalance_ok {a : Acc} {delta : Asset} {u : Unit}
    (h : (savingsOnChain (adjustBalance a delta)).run s = .ok u s') :
    s' = { s with chain := creditBalance s.chain a delta } := by
  obtain ⟨c, hc, rfl⟩ := run_focus_eq_ok h
  rw [(adjustBalance_ok hc).2]

omit [DecidableEq Acc] in
theorem index_savingsOnChain (s : SavingsState Acc) (c : MarketState Acc) :
    ({ s with chain := c } : SavingsState Acc).index = s.index := rfl

theorem index_savingsHbdInterest (s : SavingsState Acc) (a : Acc) :
    (savingsHbdInterest s a).index = s.index := by
  unfold savingsHbdInterest
  dsimp only
  split_ifs <;> rfl

theorem adjustSavingsBalance_index {a : Acc} {delta : Asset} {u : Unit}
    (h : (adjustSavingsBalance a delta).run s = .ok u s') : s'.index = s.index := by
  obtain ⟨s₀, s₁, h₀, h₁⟩ := run_bind_eq_ok h
  cases h₀
  dsimp only at h₁
  cases hsym : delta.symbol <;> simp only [hsym] at h₁
  · obtain ⟨⟨⟩, s₂, h₂, h₃⟩ := run_bind_eq_ok h₁
    cases h₂
    obtain ⟨s₄, s₅, h₄, h₅⟩ := run_bind_eq_ok h₃
    cases h₄
    obtain ⟨-, rfl⟩ := run_ite_throw_eq_ok h₅
    rfl
  · obtain ⟨⟨⟩, s₂, h₂, h₃⟩ := run_bind_eq_ok h₁
    cases h₂
    obtain ⟨⟨⟩, s₃, h₃', h₄⟩ := run_bind_eq_ok h₃
    cases h₃'
    obtain ⟨s₅, s₆, h₅, h₆⟩ := run_bind_eq_ok h₄
    cases h₅
    obtain ⟨-, rfl⟩ := run_ite_throw_eq_ok h₆
    exact index_savingsHbdInterest s a

/-! ## The index -/

omit [DecidableEq Acc] in
theorem getSavingsWithdraw_ok {fromAcc : Acc} {requestId : Nat} {w : SavingsWithdraw Acc}
    [DecidableEq Acc] (h : (getSavingsWithdraw fromAcc requestId).run s = .ok w s') :
    s' = s ∧ w ∈ s.withdraws ∧ w.key = (fromAcc, requestId) := by
  obtain ⟨s₀, s₁, h₀, h₁⟩ := run_bind_eq_ok h
  cases h₀
  split at h₁
  · rename_i w' hfind
    cases h₁
    exact ⟨rfl, List.mem_of_find?_eq_some hfind, by simpa using List.find?_some hfind⟩
  · cases h₁

theorem removeSavingsWithdraw_run (w : SavingsWithdraw Acc) (s : SavingsState Acc) :
    (removeSavingsWithdraw w).run s = .ok ()
      { s with
        withdraws := s.withdraws.filter fun c => c.key ≠ w.key
        savingsWithdrawRequests := Function.update s.savingsWithdrawRequests w.fromAcc
          (s.savingsWithdrawRequests w.fromAcc - 1) } := rfl

theorem transferFromSavings_index {fromAcc toAcc : Acc} {requestId : Nat} {amount : Asset}
    {u : Unit} (h : (transferFromSavings fromAcc toAcc requestId amount).run s = .ok u s') :
    ∃ w : SavingsWithdraw Acc, w.fromAcc = fromAcc ∧ (∀ c ∈ s.withdraws, c.key ≠ w.key) ∧
      s'.index = (s.withdraws ++ [w], Function.update s.savingsWithdrawRequests fromAcc
        (s.savingsWithdrawRequests fromAcc + 1)) := by
  obtain ⟨s₀, s₁, h₀, h₁⟩ := run_bind_eq_ok h
  cases h₀
  dsimp only at h₁
  obtain ⟨-, h₂⟩ := run_throw_if_eq_ok h₁
  obtain ⟨-, h₃⟩ := run_throw_if_eq_ok h₂
  obtain ⟨-, h₄⟩ := run_throw_if_eq_ok h₃
  obtain ⟨⟨⟩, s₂, h₅, h₆⟩ := run_bind_eq_ok h₄
  have hidx := adjustSavingsBalance_index h₅
  obtain ⟨s₃, s₄, h₇, h₈⟩ := run_bind_eq_ok h₆
  cases h₇
  obtain ⟨hfresh, h₉⟩ := run_throw_if_eq_ok h₈
  obtain ⟨⟨⟩, s₅, h₁₀, h₁₁⟩ := run_bind_eq_ok h₉
  cases h₁₀
  cases h₁₁
  obtain ⟨hws, hc⟩ := Prod.mk.inj hidx
  refine ⟨⟨fromAcc, toAcc, requestId, amount, s₂.chain.headBlockTime + hiveSavingsWithdrawTime⟩,
    rfl, fun c hc hkey => hfresh (List.any_eq_true.mpr ⟨c, ?_, ?_⟩), ?_⟩
  · rwa [hws]
  · simpa [SavingsWithdraw.key] using hkey
  · simp only [SavingsState.index, hws, hc]

theorem cancelTransferFromSavings_index {fromAcc : Acc} {requestId : Nat} {u : Unit}
    (h : (cancelTransferFromSavings fromAcc requestId).run s = .ok u s') :
    ∃ w ∈ s.withdraws, s'.index = (s.withdraws.filter (fun c => c.key ≠ w.key),
      Function.update s.savingsWithdrawRequests w.fromAcc (s.savingsWithdrawRequests w.fromAcc - 1)) := by
  obtain ⟨w, s₁, h₁, h₂⟩ := run_bind_eq_ok h
  obtain ⟨rfl, hw, -⟩ := getSavingsWithdraw_ok h₁
  obtain ⟨⟨⟩, s₂, h₃, h₄⟩ := run_bind_eq_ok h₂
  have hidx := adjustSavingsBalance_index h₃
  rw [removeSavingsWithdraw_run] at h₄
  cases h₄
  simp only [SavingsState.index, Prod.mk.injEq] at hidx
  exact ⟨w, hw, by simp only [SavingsState.index, hidx.1, hidx.2]⟩

theorem processSavingsWithdraw_index {w : SavingsWithdraw Acc} {u : Unit}
    (h : (savingsOnChain (adjustBalance w.toAcc w.amount) >>= fun _ => removeSavingsWithdraw w).run
      s = .ok u s') :
    s'.index = (s.withdraws.filter (fun c => c.key ≠ w.key),
      Function.update s.savingsWithdrawRequests w.fromAcc (s.savingsWithdrawRequests w.fromAcc - 1)) := by
  obtain ⟨⟨⟩, s₁, h₁, h₂⟩ := run_bind_eq_ok h
  rw [savingsOnChain_adjustBalance_ok h₁, removeSavingsWithdraw_run] at h₂
  cases h₂
  rfl

omit [DecidableEq Acc] in
theorem mem_dueSavingsWithdraws {w : SavingsWithdraw Acc} :
    w ∈ dueSavingsWithdraws s ↔ w ∈ s.withdraws ∧ w.complete ≤ s.chain.headBlockTime := by
  simp [dueSavingsWithdraws, List.mem_mergeSort]

omit [DecidableEq Acc] in
theorem nodup_dueSavingsWithdraws (hnd : (s.withdraws.map SavingsWithdraw.key).Nodup) :
    ((dueSavingsWithdraws s).map SavingsWithdraw.key).Nodup :=
  ((List.mergeSort_perm _ _).map SavingsWithdraw.key).nodup_iff.mpr
    (hnd.sublist (List.filter_sublist.map _))

/-! ## The counter -/

/-- Unique keys, and `savings_withdraw_requests` counting each account's withdrawals. -/
structure SavingsInv (s : SavingsState Acc) : Prop where
  nodup : (s.withdraws.map SavingsWithdraw.key).Nodup
  counts : Counts SavingsWithdraw.fromAcc s.savingsWithdrawRequests s.withdraws

theorem SavingsInv.of_index (hs : SavingsInv s) (h : s'.index = s.index) : SavingsInv s' := by
  obtain ⟨hw, hc⟩ := Prod.mk.inj h
  constructor
  · rw [hw]
    exact hs.nodup
  · rw [hw, hc]
    exact hs.counts

theorem SavingsInv.remove (hs : SavingsInv s) {w : SavingsWithdraw Acc} (hw : w ∈ s.withdraws)
    (h : s'.index = (s.withdraws.filter (fun c => c.key ≠ w.key),
      Function.update s.savingsWithdrawRequests w.fromAcc (s.savingsWithdrawRequests w.fromAcc - 1))) :
    SavingsInv s' := by
  obtain ⟨hws, hc⟩ := Prod.mk.inj h
  constructor
  · rw [hws]
    exact hs.nodup.sublist (List.filter_sublist.map _)
  · rw [hws, hc]
    exact hs.counts.filter_key hs.nodup hw

theorem processSavingsWithdraws_inv {u : Unit} (hs : SavingsInv s)
    (h : processSavingsWithdraws.run s = .ok u s') : SavingsInv s' := by
  obtain ⟨s₀, s₁, h₀, h₁⟩ := run_bind_eq_ok h
  cases h₀
  -- the invariant of the loop: the counter, and every withdrawal not yet completed still there
  have hloop := forM_run_ok_inv _
    (fun pre t => SavingsInv t ∧
      ∀ w ∈ s.withdraws, w.key ∉ pre.map SavingsWithdraw.key → w ∈ t.withdraws)
    (dueSavingsWithdraws s) ?step ⟨hs, fun w hw _ => hw⟩ h₁
  · exact hloop.1
  case step =>
    rintro pre x post t t' hl ⟨ht, hkeep⟩ hx
    have hxdue : x ∈ dueSavingsWithdraws s := by
      rw [hl]
      exact List.mem_append_right pre List.mem_cons_self
    have hxpre : x.key ∉ pre.map SavingsWithdraw.key :=
      key_not_mem_prefix _ (nodup_dueSavingsWithdraws hs.nodup) hl
    have hxt := hkeep x (mem_dueSavingsWithdraws.mp hxdue).1 hxpre
    have hidx := processSavingsWithdraw_index hx
    refine ⟨ht.remove hxt hidx, fun w hw hk => ?_⟩
    simp only [List.map_append, List.map_cons, List.map_nil, List.mem_append, List.mem_singleton,
      not_or] at hk
    rw [(Prod.mk.inj hidx).1]
    exact List.mem_filter.mpr ⟨hkeep w hw hk.1, by simpa using hk.2⟩

theorem SavingsOp.apply_inv {op : SavingsOp Acc} {u : Unit} (hs : SavingsInv s)
    (h : op.apply.run s = .ok u s') : SavingsInv s' := by
  cases op with
  | transferToSavings fromAcc toAcc amount =>
    simp only [SavingsOp.apply] at h
    obtain ⟨-, h₁⟩ := run_throw_if_eq_ok h
    obtain ⟨s₀, s₁, h₀, h₂⟩ := run_bind_eq_ok h₁
    cases h₀
    obtain ⟨-, h₃⟩ := run_throw_if_eq_ok h₂
    obtain ⟨⟨⟩, s₂, h₄, h₅⟩ := run_bind_eq_ok h₃
    rw [savingsOnChain_adjustBalance_ok h₄] at h₅
    exact (hs.of_index (index_savingsOnChain s _)).of_index (adjustSavingsBalance_index h₅)
  | transferFromSavings fromAcc toAcc requestId amount =>
    simp only [SavingsOp.apply] at h
    obtain ⟨-, h₁⟩ := run_throw_if_eq_ok h
    obtain ⟨w, hfrom, hfresh, hidx⟩ := transferFromSavings_index h₁
    obtain ⟨hws, hc⟩ := Prod.mk.inj hidx
    constructor
    · rw [hws]
      exact nodup_map_append_of_fresh _ hs.nodup hfresh
    · rw [hws, hc, ← hfrom]
      exact hs.counts.append w
  | cancelTransferFromSavings fromAcc requestId =>
    obtain ⟨w, hw, hidx⟩ := cancelTransferFromSavings_index h
    exact hs.remove hw hidx
  | processSavingsWithdraws => exact processSavingsWithdraws_inv hs h

theorem SavingsOp.run_inv (op : SavingsOp Acc) (hs : SavingsInv s) : SavingsInv (op.run s) := by
  unfold SavingsOp.run
  split
  · rename_i h
    exact SavingsOp.apply_inv hs h
  · exact hs

/-! ## The hardfork

No savings operation changes the hardfork: the balances change only through `adjust_balance`,
and the interest only the HBD supply. -/

theorem savingsOnChain_adjustBalance_hardfork (a : Acc) (delta : Asset) :
    Moves (fun s : SavingsState Acc => s.chain.hardfork) Eq (savingsOnChain (adjustBalance a delta)) :=
  Moves.of_eq fun _ _ _ h => by
    rw [savingsOnChain_adjustBalance_ok h]
    exact creditBalance_hardfork _ _ _

theorem savingsHbdInterest_hardfork (s : SavingsState Acc) (a : Acc) :
    (savingsHbdInterest s a).chain.hardfork = s.chain.hardfork := by
  unfold savingsHbdInterest
  dsimp only
  split_ifs <;> rfl

theorem adjustSavingsBalance_hardfork (a : Acc) (delta : Asset) :
    Moves (fun s : SavingsState Acc => s.chain.hardfork) Eq (adjustSavingsBalance a delta) := by
  unfold adjustSavingsBalance
  refine Moves.bind moves_get fun s => ?_
  dsimp only
  split
  · exact Moves.bind (moves_modify fun _ => rfl) fun _ =>
      Moves.bind moves_get fun _ => Moves.ite (moves_throw _) (moves_pure _)
  · exact Moves.bind (moves_modify fun s => savingsHbdInterest_hardfork s a) fun _ =>
      Moves.bind (moves_modify fun _ => rfl) fun _ =>
      Moves.bind moves_get fun _ => Moves.ite (moves_throw _) (moves_pure _)

theorem removeSavingsWithdraw_hardfork (w : SavingsWithdraw Acc) :
    Moves (fun s : SavingsState Acc => s.chain.hardfork) Eq (removeSavingsWithdraw w) :=
  Moves.bind (moves_modify fun _ => rfl) fun _ => moves_modify fun _ => rfl

theorem transferToSavings_hardfork (fromAcc toAcc : Acc) (amount : Asset) :
    Moves (fun s : SavingsState Acc => s.chain.hardfork) Eq (transferToSavings fromAcc toAcc amount) := by
  unfold transferToSavings
  exact Moves.bind moves_get fun _ => Moves.throw_if <|
    Moves.bind (savingsOnChain_adjustBalance_hardfork _ _) fun _ => adjustSavingsBalance_hardfork _ _

theorem transferFromSavings_hardfork (fromAcc toAcc : Acc) (requestId : Nat) (amount : Asset) :
    Moves (fun s : SavingsState Acc => s.chain.hardfork) Eq
      (transferFromSavings fromAcc toAcc requestId amount) := by
  unfold transferFromSavings
  exact Moves.bind moves_get fun _ => Moves.throw_if <| Moves.throw_if <| Moves.throw_if <|
    Moves.bind (adjustSavingsBalance_hardfork _ _) fun _ => Moves.bind moves_get fun _ =>
    Moves.throw_if <| Moves.bind (moves_modify fun _ => rfl) fun _ => moves_modify fun _ => rfl

theorem cancelTransferFromSavings_hardfork (fromAcc : Acc) (requestId : Nat) :
    Moves (fun s : SavingsState Acc => s.chain.hardfork) Eq (cancelTransferFromSavings fromAcc requestId) := by
  unfold cancelTransferFromSavings getSavingsWithdraw
  refine Moves.bind (Moves.bind moves_get fun s => ?_) fun w =>
    Moves.bind (adjustSavingsBalance_hardfork _ _) fun _ => removeSavingsWithdraw_hardfork w
  split
  · exact moves_pure _
  · exact moves_throw _

theorem processSavingsWithdraws_hardfork :
    Moves (fun s : SavingsState Acc => s.chain.hardfork) Eq (processSavingsWithdraws : SavingsM Acc Unit) := by
  unfold processSavingsWithdraws
  exact Moves.bind moves_get fun _ => Moves.forM (fun _ =>
    Moves.bind (savingsOnChain_adjustBalance_hardfork _ _) fun _ => removeSavingsWithdraw_hardfork _) _

theorem SavingsOp.run_hardfork (op : SavingsOp Acc) (s : SavingsState Acc) :
    (op.run s).chain.hardfork = s.chain.hardfork := by
  have happly : Moves (fun s : SavingsState Acc => s.chain.hardfork) Eq op.apply := by
    cases op with
    | transferToSavings fromAcc toAcc amount =>
      unfold SavingsOp.apply
      refine Moves.throw_if ?_
      exact transferToSavings_hardfork _ _ _
    | transferFromSavings fromAcc toAcc requestId amount =>
      unfold SavingsOp.apply
      refine Moves.throw_if ?_
      exact transferFromSavings_hardfork _ _ _ _
    | cancelTransferFromSavings fromAcc requestId => exact cancelTransferFromSavings_hardfork _ _
    | processSavingsWithdraws => exact processSavingsWithdraws_hardfork
  unfold SavingsOp.run
  split
  · rename_i h
    exact happly.view_eq h
  · rfl

end Chain
end HiveChain
