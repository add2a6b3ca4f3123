import HiveChain.Chain.Escrow
import HiveChain.Chain.MarketSpec

/-!
# HiveChain.Chain.EscrowSpec

What each escrow function leaves behind when it returns: the state, as a function of the state
before, and the checks that passed.
-/

namespace HiveChain
namespace Chain

open EState KeyedList

variable {Acc : Type} [DecidableEq Acc]

/-! ## The index and the balances -/

/-- The index without the escrow of a key. -/
def removeEscrows (l : List (Escrow Acc)) (k : Acc × Nat) : List (Escrow Acc) :=
  l.filter fun e => e.key ≠ k

/-- The counter of an account moved by one. -/
def bumpCounter (c : Acc → Nat) (a : Acc) (up : Bool) : Acc → Nat :=
  Function.update c a (if up then c a + 1 else c a - 1)

namespace Escrow

variable (e : Escrow Acc)

omit [DecidableEq Acc] in
@[simp] theorem isApproved_eq_true :
    e.isApproved = true ↔ e.toApproved = true ∧ e.agentApproved = true := by
  simp [isApproved]

/-- The escrow once `who` approved it, as `to`, as `agent`, or as both when they are one
account. -/
def approveBy (who : Acc) : Escrow Acc :=
  { e with
    toApproved := e.toApproved || decide (who = e.toAcc)
    agentApproved := e.agentApproved || decide (who = e.agent) }

/-- The escrow with its fee paid out to the agent. -/
def feePaid : Escrow Acc := { e with pendingFee := { e.pendingFee with amount := 0 } }

/-- Who may release an escrow's funds to whom at time `now`: in a dispute the agent alone, to
either party; otherwise `from` or `to`, and before expiration each only to the other. -/
def MayRelease (who receiver : Acc) (now : Nat) : Prop :=
  (receiver = e.fromAcc ∨ receiver = e.toAcc) ∧
    if e.disputed then who = e.agent
    else (who = e.fromAcc ∨ who = e.toAcc) ∧
      (now < e.escrowExpiration →
        who = e.fromAcc ∧ receiver = e.toAcc ∨ who = e.toAcc ∧ receiver = e.fromAcc)

/-- What is left of an escrow once `hive` and `hbd` are released. -/
def withdraw (hive hbd : Int) : Escrow Acc :=
  { e with
    hiveBalance := e.hiveBalance - hive
    hbdBalance := e.hbdBalance - hbd }

@[simp] theorem key_approveBy (who : Acc) : (e.approveBy who).key = e.key := rfl

omit [DecidableEq Acc] in
@[simp] theorem key_feePaid : e.feePaid.key = e.key := rfl

end Escrow

/-- The escrow of the key of `e` replaced by `e`. -/
def EscrowState.setEscrow (s : EscrowState Acc) (e : Escrow Acc) : EscrowState Acc :=
  { s with escrows := updateKey Escrow.key s.escrows e.key fun _ => e }

/-- The escrows `expire_escrow_ratification` refunds, in the order it refunds them. -/
def expiredEscrows (s : EscrowState Acc) : List (Escrow Acc) :=
  (s.escrows.filter fun e =>
    !e.isApproved && decide (e.ratificationDeadline ≤ s.chain.headBlockTime)).mergeSort
      fun e₁ e₂ => decide (e₁.ratificationDeadline ≤ e₂.ratificationDeadline)

variable {s s' : EscrowState Acc}

theorem onChain_adjustBalance_ok {a : Acc} {delta : Asset} {u : Unit}
    (h : (onChain (adjustBalance a delta)).run s = .ok u s') :
    (delta.amount < 0 → -delta.amount ≤ s.chain.getBalance a delta.symbol) ∧
      s' = { s with chain := creditBalance s.chain a delta } := by
  obtain ⟨c, hc, rfl⟩ := run_focus_eq_ok h
  obtain ⟨hguard, rfl⟩ := adjustBalance_ok hc
  exact ⟨hguard, rfl⟩

theorem getEscrow_ok {fromAcc : Acc} {escrowId : Nat} {e : Escrow Acc}
    (h : (getEscrow fromAcc escrowId).run s = .ok e s') :
    s' = s ∧ e ∈ s.escrows ∧ e.key = (fromAcc, escrowId) := by
  obtain ⟨s₀, s₁, h₀, h₁⟩ := run_bind_eq_ok h
  cases h₀
  split at h₁
  · rename_i e' hfind
    cases h₁
    exact ⟨rfl, List.mem_of_find?_eq_some hfind, by simpa using List.find?_some hfind⟩
  · cases h₁

theorem modifyEscrow_run (fromAcc : Acc) (escrowId : Nat) (f : Escrow Acc → Escrow Acc)
    (s : EscrowState Acc) :
    (modifyEscrow fromAcc escrowId f).run s =
      .ok () { s with escrows := updateKey Escrow.key s.escrows (fromAcc, escrowId) f } := rfl

theorem removeEscrow_run (fromAcc : Acc) (escrowId : Nat) (s : EscrowState Acc) :
    (removeEscrow fromAcc escrowId).run s =
      .ok () { s with escrows := removeEscrows s.escrows (fromAcc, escrowId) } := rfl

theorem adjustPendingEscrowTransfers_run (a : Acc) (up : Bool) (s : EscrowState Acc) :
    (adjustPendingEscrowTransfers a up).run s =
      .ok () { s with pendingEscrowTransfers := bumpCounter s.pendingEscrowTransfers a up } := rfl

/-- The state after `from` got back all an escrow holds and the escrow was removed. -/
def refunded (s : EscrowState Acc) (e : Escrow Acc) : EscrowState Acc where
  chain := creditBalance (creditBalance (creditBalance s.chain e.fromAcc ⟨e.hiveBalance, .hive⟩)
    e.fromAcc ⟨e.hbdBalance, .hbd⟩) e.fromAcc e.pendingFee
  escrows := removeEscrows s.escrows e.key
  pendingEscrowTransfers := bumpCounter s.pendingEscrowTransfers e.fromAcc false

theorem refundEscrow_ok {e : Escrow Acc} {u : Unit} (h : (refundEscrow e).run s = .ok u s') :
    s' = refunded s e := by
  obtain ⟨⟨⟩, s₁, h₁, h₂⟩ := run_bind_eq_ok h
  obtain ⟨-, rfl⟩ := onChain_adjustBalance_ok h₁
  obtain ⟨⟨⟩, s₂, h₃, h₄⟩ := run_bind_eq_ok h₂
  obtain ⟨-, rfl⟩ := onChain_adjustBalance_ok h₃
  obtain ⟨⟨⟩, s₃, h₅, h₆⟩ := run_bind_eq_ok h₄
  obtain ⟨-, rfl⟩ := onChain_adjustBalance_ok h₅
  obtain ⟨⟨⟩, s₄, h₇, h₈⟩ := run_bind_eq_ok h₆
  rw [adjustPendingEscrowTransfers_run] at h₇
  cases h₇
  rw [removeEscrow_run] at h₈
  cases h₈
  rfl

/-! ## The evaluators -/

theorem escrowTransfer_ok {fromAcc toAcc agent : Acc} {escrowId : Nat}
    {hbdAmount hiveAmount fee : Asset} {ratificationDeadline escrowExpiration : Nat} {u : Unit}
    (h : (escrowTransfer fromAcc toAcc agent escrowId hbdAmount hiveAmount fee ratificationDeadline
      escrowExpiration).run s = .ok u s') :
    s.chain.headBlockTime < ratificationDeadline ∧ s.chain.headBlockTime < escrowExpiration ∧
      (∀ e ∈ s.escrows, e.key ≠ (fromAcc, escrowId)) ∧
      s' = {
        chain := creditBalance (creditBalance s.chain fromAcc
            ⟨-(hiveAmount.amount + fee.amountIn .hive), .hive⟩)
            fromAcc ⟨-(hbdAmount.amount + fee.amountIn .hbd), .hbd⟩,
        escrows := s.escrows ++ [⟨escrowId, fromAcc, toAcc, agent, ratificationDeadline,
            escrowExpiration, hbdAmount.amount, hiveAmount.amount, fee, false, false, false⟩],
        pendingEscrowTransfers := bumpCounter s.pendingEscrowTransfers fromAcc true } := by
  obtain ⟨t, s₁, h₁, h₂⟩ := run_bind_eq_ok h
  cases h₁
  dsimp only at h₂
  obtain ⟨hdl, h₃⟩ := run_throw_if_eq_ok h₂
  obtain ⟨hexp, h₄⟩ := run_throw_if_eq_ok h₃
  obtain ⟨-, h₅⟩ := run_throw_if_eq_ok h₄
  obtain ⟨⟨⟩, s₂, h₆, h₇⟩ := run_bind_eq_ok h₅
  obtain ⟨-, rfl⟩ := onChain_adjustBalance_ok h₆
  obtain ⟨⟨⟩, s₃, h₈, h₉⟩ := run_bind_eq_ok h₇
  obtain ⟨-, rfl⟩ := onChain_adjustBalance_ok h₈
  obtain ⟨t', s₄, h₁₀, h₁₁⟩ := run_bind_eq_ok h₉
  cases h₁₀
  dsimp only at h₁₁
  obtain ⟨hfresh, h₁₂⟩ := run_throw_if_eq_ok h₁₁
  obtain ⟨⟨⟩, s₅, h₁₃, h₁₄⟩ := run_bind_eq_ok h₁₂
  cases h₁₃
  rw [adjustPendingEscrowTransfers_run] at h₁₄
  cases h₁₄
  refine ⟨by omega, by omega, fun e he hkey => hfresh (List.any_eq_true.mpr ⟨e, he, by simpa⟩),
    ?_⟩
  cases hsym : fee.symbol <;> simp [Asset.amountIn, hsym]

theorem approveAs_ok {isParty alreadyApproved rejectEscrow : Bool} {msg : String} {fromAcc : Acc}
    {escrowId : Nat} {mark : Escrow Acc → Escrow Acc} {u : Unit}
    (h : (approveAs isParty alreadyApproved rejectEscrow msg fromAcc escrowId mark).run s =
      .ok u s') :
    (isParty = true → alreadyApproved = false) ∧
      s' = { s with
        escrows := updateKey Escrow.key s.escrows (fromAcc, escrowId)
          (if isParty && !rejectEscrow then mark else id) } := by
  unfold approveAs at h
  cases isParty
  · cases h
    simp
  · simp only [if_true] at h
    obtain ⟨hnot, h₁⟩ := run_throw_if_eq_ok h
    refine ⟨fun _ => by simpa using hnot, ?_⟩
    cases rejectEscrow
    · simp only [Bool.not_false, ↓reduceIte, modifyEscrow_run] at h₁
      cases h₁
      rfl
    · simp only [Bool.not_true, Bool.false_eq_true, ↓reduceIte] at h₁
      cases h₁
      simp

theorem payFeeIfApproved_ok {fromAcc agent : Acc} {escrowId : Nat} {u : Unit}
    (h : (payFeeIfApproved fromAcc agent escrowId).run s = .ok u s') :
    ∃ e ∈ s.escrows, e.key = (fromAcc, escrowId) ∧
      s' = if e.isApproved then
        { s with
          chain := creditBalance s.chain agent e.pendingFee
          escrows := updateKey Escrow.key s.escrows (fromAcc, escrowId) Escrow.feePaid }
      else s := by
  obtain ⟨e, s₁, h₁, h₂⟩ := run_bind_eq_ok h
  obtain ⟨rfl, he, hk⟩ := getEscrow_ok h₁
  refine ⟨e, he, hk, ?_⟩
  by_cases happ : e.toApproved = true ∧ e.agentApproved = true
  · rw [if_pos happ] at h₂
    obtain ⟨⟨⟩, s₂, h₃, h₄⟩ := run_bind_eq_ok h₂
    obtain ⟨-, rfl⟩ := onChain_adjustBalance_ok h₃
    rw [modifyEscrow_run] at h₄
    cases h₄
    rw [if_pos ((Escrow.isApproved_eq_true e).mpr happ)]
    rfl
  · rw [if_neg happ] at h₂
    cases h₂
    rw [if_neg fun h => happ ((Escrow.isApproved_eq_true e).mp h)]

theorem updateKey_approvals {l : List (Escrow Acc)} (hnd : (l.map Escrow.key).Nodup)
    {e : Escrow Acc} (he : e ∈ l) (who : Acc) :
    updateKey Escrow.key (updateKey Escrow.key l e.key
        (if who = e.toAcc then fun c => { c with toApproved := true } else id)) e.key
      (if who = e.agent then fun c => { c with agentApproved := true } else id) =
      updateKey Escrow.key l e.key fun _ => e.approveBy who := by
  have hkey : ∀ c : Escrow Acc, Escrow.key
      ((if who = e.toAcc then fun c => { c with toApproved := true } else id) c) = c.key := by
    intro c
    split <;> rfl
  rw [updateKey_updateKey Escrow.key l e.key _ fun c hc => (hkey c).trans hc]
  refine updateKey_congr Escrow.key hnd he rfl _ _ ?_
  unfold Escrow.approveBy
  by_cases h₁ : who = e.toAcc <;> by_cases h₂ : who = e.agent
  · simp only [if_pos h₁, if_pos h₂, decide_eq_true h₁, decide_eq_true h₂, Bool.or_true,
      Function.comp_apply]
  · simp only [if_pos h₁, if_neg h₂, decide_eq_true h₁, decide_eq_false h₂, Bool.or_true,
      Bool.or_false, Function.comp_apply, id]
  · simp only [if_neg h₁, if_pos h₂, decide_eq_false h₁, decide_eq_true h₂, Bool.or_true,
      Bool.or_false, Function.comp_apply, id]
  · simp only [if_neg h₁, if_neg h₂, decide_eq_false h₁, decide_eq_false h₂, Bool.or_false,
      Function.comp_apply, id]

theorem escrowApprove_ok {fromAcc toAcc agent who : Acc} {escrowId : Nat} {approve : Bool}
    {u : Unit} (hnd : (s.escrows.map Escrow.key).Nodup)
    (h : (escrowApprove fromAcc toAcc agent who escrowId approve).run s = .ok u s') :
    ∃ e ∈ s.escrows, e.key = (fromAcc, escrowId) ∧ e.toAcc = toAcc ∧ e.agent = agent ∧
      s.chain.headBlockTime ≤ e.ratificationDeadline ∧
      (who = toAcc → e.toApproved = false) ∧ (who = agent → e.agentApproved = false) ∧
      if approve then
        (payFeeIfApproved fromAcc agent escrowId).run (s.setEscrow (e.approveBy who)) = .ok () s'
      else s' = refunded s e := by
  obtain ⟨e, s₁, h₁, h₂⟩ := run_bind_eq_ok h
  obtain ⟨rfl, he, hk⟩ := getEscrow_ok h₁
  obtain ⟨hto, h₃⟩ := run_throw_if_eq_ok h₂
  obtain ⟨hagent, h₄⟩ := run_throw_if_eq_ok h₃
  obtain ⟨s₂, s₃, h₅, h₆⟩ := run_bind_eq_ok h₄
  cases h₅
  dsimp only at h₆
  obtain ⟨hdl, h₇⟩ := run_throw_if_eq_ok h₆
  obtain ⟨⟨⟩, s₄, h₈, h₉⟩ := run_bind_eq_ok h₇
  obtain ⟨hto', rfl⟩ := approveAs_ok h₈
  obtain ⟨⟨⟩, s₅, h₁₀, h₁₁⟩ := run_bind_eq_ok h₉
  obtain ⟨hag', rfl⟩ := approveAs_ok h₁₀
  simp only [not_not] at hto hagent
  refine ⟨e, he, hk, hto, hagent, by omega, fun hw => by simpa [hw] using hto',
    fun hw => by simpa [hw] using hag', ?_⟩
  cases approve
  · simp at h₁₁ ⊢
    exact refundEscrow_ok h₁₁
  · simp only [Bool.not_true, Bool.not_false, Bool.and_true, decide_eq_true_eq,
      Bool.false_eq_true, ↓reduceIte] at h₁₁ ⊢
    subst hto hagent
    rwa [← hk, updateKey_approvals hnd he] at h₁₁

theorem escrowDispute_ok {fromAcc toAcc agent : Acc} {escrowId : Nat} {u : Unit}
    (h : (escrowDispute fromAcc toAcc agent escrowId).run s = .ok u s') :
    ∃ e ∈ s.escrows, e.key = (fromAcc, escrowId) ∧ e.toAcc = toAcc ∧ e.agent = agent ∧
      s.chain.headBlockTime < e.escrowExpiration ∧ e.isApproved = true ∧ e.disputed = false ∧
      s' = { s with
        escrows := updateKey Escrow.key s.escrows (fromAcc, escrowId) fun e =>
          { e with disputed := true } } := by
  obtain ⟨e, s₁, h₁, h₂⟩ := run_bind_eq_ok h
  obtain ⟨rfl, he, hk⟩ := getEscrow_ok h₁
  obtain ⟨s₂, s₃, h₃, h₄⟩ := run_bind_eq_ok h₂
  cases h₃
  dsimp only at h₄
  obtain ⟨hexp, h₅⟩ := run_throw_if_eq_ok h₄
  obtain ⟨happ, h₆⟩ := run_throw_if_eq_ok h₅
  obtain ⟨hdisp, h₇⟩ := run_throw_if_eq_ok h₆
  obtain ⟨hto, h₈⟩ := run_throw_if_eq_ok h₇
  obtain ⟨hagent, h₉⟩ := run_throw_if_eq_ok h₈
  rw [modifyEscrow_run] at h₉
  cases h₉
  simp only [not_not, Bool.not_eq_true] at happ hdisp hto hagent
  exact ⟨e, he, hk, hto, hagent, by omega, (Escrow.isApproved_eq_true e).mpr happ, hdisp, rfl⟩

theorem checkReleaser_ok {e : Escrow Acc} {who receiver : Acc} {now : Nat} {u : Unit}
    (hr : receiver = e.fromAcc ∨ receiver = e.toAcc)
    (h : (checkReleaser e who receiver now).run s = .ok u s') :
    s' = s ∧ e.MayRelease who receiver now := by
  unfold checkReleaser at h
  unfold Escrow.MayRelease
  cases hd : e.disputed
  · -- not disputed: `from` or `to`, and each only to the other before expiration
    simp only [hd, Bool.false_eq_true, ↓reduceIte] at h ⊢
    obtain ⟨hwho, h₁⟩ := run_throw_if_eq_ok h
    rw [not_not] at hwho
    split at h₁
    · rename_i hnow
      split at h₁
      · rename_i hfrom
        obtain ⟨hrec, rfl⟩ := run_ite_throw_eq_ok h₁
        exact ⟨rfl, hr, hwho, fun _ => .inl ⟨hfrom, not_not.mp hrec⟩⟩
      · rename_i hfrom
        split at h₁
        · rename_i hto
          obtain ⟨hrec, rfl⟩ := run_ite_throw_eq_ok h₁
          exact ⟨rfl, hr, hwho, fun _ => .inr ⟨hto, not_not.mp hrec⟩⟩
        · exact absurd (hwho.resolve_left hfrom) ‹_›
    · rename_i hnow
      cases h₁
      exact ⟨rfl, hr, hwho, fun hlt => absurd hlt hnow⟩
  · -- disputed: the agent alone
    simp only [hd, ↓reduceIte] at h ⊢
    obtain ⟨hagent, rfl⟩ := run_ite_throw_eq_ok h
    exact ⟨rfl, hr, not_not.mp hagent⟩

theorem removeIfEmpty_ok {fromAcc : Acc} {escrowId : Nat} {u : Unit}
    (h : (removeIfEmpty fromAcc escrowId).run s = .ok u s') :
    ∃ e ∈ s.escrows, e.key = (fromAcc, escrowId) ∧
      s' = if e.hiveBalance = 0 ∧ e.hbdBalance = 0 then
        { s with
          escrows := removeEscrows s.escrows (fromAcc, escrowId)
          pendingEscrowTransfers := bumpCounter s.pendingEscrowTransfers fromAcc false }
      else s := by
  obtain ⟨e, s₁, h₁, h₂⟩ := run_bind_eq_ok h
  obtain ⟨rfl, he, hk⟩ := getEscrow_ok h₁
  refine ⟨e, he, hk, ?_⟩
  split at h₂
  · rename_i hzero
    obtain ⟨⟨⟩, s₂, h₃, h₄⟩ := run_bind_eq_ok h₂
    rw [adjustPendingEscrowTransfers_run] at h₃
    cases h₃
    rw [removeEscrow_run] at h₄
    cases h₄
    rw [if_pos hzero]
  · rename_i hzero
    cases h₂
    rw [if_neg hzero]

theorem escrowRelease_ok {fromAcc toAcc agent who receiver : Acc} {escrowId : Nat}
    {hbdAmount hiveAmount : Asset} {u : Unit}
    (h : (escrowRelease fromAcc toAcc agent who receiver escrowId hbdAmount hiveAmount).run s =
      .ok u s') :
    ∃ e ∈ s.escrows, e.key = (fromAcc, escrowId) ∧ hiveAmount.amount ≤ e.hiveBalance ∧
      hbdAmount.amount ≤ e.hbdBalance ∧ e.toAcc = toAcc ∧ e.agent = agent ∧
      e.isApproved = true ∧ e.MayRelease who receiver s.chain.headBlockTime ∧
      (removeIfEmpty fromAcc escrowId).run
        { s with
          chain := creditBalance (creditBalance s.chain receiver hiveAmount) receiver hbdAmount
          escrows := updateKey Escrow.key s.escrows (fromAcc, escrowId) fun e =>
            e.withdraw hiveAmount.amount hbdAmount.amount } = .ok () s' := by
  obtain ⟨e, s₁, h₁, h₂⟩ := run_bind_eq_ok h
  obtain ⟨rfl, he, hk⟩ := getEscrow_ok h₁
  obtain ⟨hhive, h₃⟩ := run_throw_if_eq_ok h₂
  obtain ⟨hhbd, h₄⟩ := run_throw_if_eq_ok h₃
  obtain ⟨hto, h₅⟩ := run_throw_if_eq_ok h₄
  obtain ⟨hagent, h₆⟩ := run_throw_if_eq_ok h₅
  obtain ⟨hrec, h₇⟩ := run_throw_if_eq_ok h₆
  obtain ⟨happ, h₈⟩ := run_throw_if_eq_ok h₇
  obtain ⟨s₂, s₃, h₉, h₁₀⟩ := run_bind_eq_ok h₈
  cases h₉
  obtain ⟨⟨⟩, s₄, h₁₁, h₁₂⟩ := run_bind_eq_ok h₁₀
  obtain ⟨rfl, hmay⟩ := checkReleaser_ok (not_not.mp hrec) h₁₁
  obtain ⟨⟨⟩, s₅, h₁₃, h₁₄⟩ := run_bind_eq_ok h₁₂
  obtain ⟨-, rfl⟩ := onChain_adjustBalance_ok h₁₃
  obtain ⟨⟨⟩, s₆, h₁₅, h₁₆⟩ := run_bind_eq_ok h₁₄
  obtain ⟨-, rfl⟩ := onChain_adjustBalance_ok h₁₅
  obtain ⟨⟨⟩, s₇, h₁₇, h₁₈⟩ := run_bind_eq_ok h₁₆
  rw [modifyEscrow_run] at h₁₇
  cases h₁₇
  simp only [not_lt, not_not] at hhive hhbd hto hagent happ
  exact ⟨e, he, hk, hhive, hhbd, hto, hagent, (Escrow.isApproved_eq_true e).mpr happ, hmay, h₁₈⟩

theorem expireEscrowRatification_run (s : EscrowState Acc) :
    expireEscrowRatification.run s = ((expiredEscrows s).forM refundEscrow).run s := rfl

omit [DecidableEq Acc] in
theorem mem_expiredEscrows {e : Escrow Acc} :
    e ∈ expiredEscrows s ↔
      e ∈ s.escrows ∧ e.isApproved = false ∧ e.ratificationDeadline ≤ s.chain.headBlockTime := by
  simp [expiredEscrows, List.mem_mergeSort]

omit [DecidableEq Acc] in
theorem nodup_expiredEscrows (hnd : (s.escrows.map Escrow.key).Nodup) :
    ((expiredEscrows s).map Escrow.key).Nodup :=
  ((List.mergeSort_perm _ _).map Escrow.key).nodup_iff.mpr (hnd.sublist (List.filter_sublist.map _))

end Chain
end HiveChain
