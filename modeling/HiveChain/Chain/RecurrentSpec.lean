import HiveChain.Chain.RecurrentTransfers

/-!
# HiveChain.Chain.RecurrentSpec

What the evaluator and the block step do to the recurrent transfers and to
`open_recurrent_transfers`, and the invariant they keep: unique ids and keys, the counter
counting each account's transfers, and executions left on every transfer. Under it neither
`FC_ASSERT` of the removal nor that of `remaining_executions` fires.
-/

namespace HiveChain
namespace Chain

open EState KeyedList

variable {Acc : Type} [DecidableEq Acc] {s s' : RecurrentState Acc}

/-- The transfers, the counter and the next id: all the invariant reads. -/
def RecurrentState.index (s : RecurrentState Acc) :
    List (RecurrentTransfer Acc) × (Acc → Nat) × Nat :=
  (s.transfers, s.openRecurrentTransfers, s.nextId)

/-- The index after the transfer `t` is removed and uncounted. -/
def RecurrentState.removedIndex (s : RecurrentState Acc) (t : RecurrentTransfer Acc) :
    List (RecurrentTransfer Acc) × (Acc → Nat) × Nat :=
  (s.transfers.filter fun c => c.id ≠ t.id,
    Function.update s.openRecurrentTransfers t.fromId (s.openRecurrentTransfers t.fromId - 1),
    s.nextId)

/-- A change of the transfer `t` in place: its id and key kept, executions left. -/
structure RecurrentTransfer.Rewrite (t : RecurrentTransfer Acc)
    (g : RecurrentTransfer Acc → RecurrentTransfer Acc) : Prop where
  id_eq : (g t).id = t.id
  key_eq : (g t).key = t.key
  remaining_pos : 0 < (g t).remainingExecutions

/-- The index after the transfer `t` is changed in place by `g`. -/
def RecurrentState.rewrittenIndex (s : RecurrentState Acc) (t : RecurrentTransfer Acc)
    (g : RecurrentTransfer Acc → RecurrentTransfer Acc) :
    List (RecurrentTransfer Acc) × (Acc → Nat) × Nat :=
  (updateKey RecurrentTransfer.id s.transfers t.id g, s.openRecurrentTransfers, s.nextId)

/-! ## The balances leave the index alone -/

theorem recurrentOnChain_adjustBalance_ok {a : Acc} {delta : Asset} {u : Unit}
    (h : (recurrentOnChain (adjustBalance a delta)).run s = .ok u s') :
    s' = { s with chain := creditBalance s.chain a delta } := by
  obtain ⟨c, hc, rfl⟩ := run_focus_eq_ok h
  rw [(adjustBalance_ok hc).2]

/-! ## Removal -/

theorem removeRecurrentTransfer_ok {t : RecurrentTransfer Acc} {u : Unit}
    (h : (removeRecurrentTransfer t).run s = .ok u s') :
    0 < s.openRecurrentTransfers t.fromId ∧ s'.index = s.removedIndex t := by
  obtain ⟨⟨⟩, s₁, h₁, h₂⟩ := run_bind_eq_ok h
  cases h₁
  obtain ⟨s₂, s₃, h₃, h₄⟩ := run_bind_eq_ok h₂
  cases h₃
  obtain ⟨hpos, h₅⟩ := run_throw_if_eq_ok h₄
  cases h₅
  exact ⟨not_not.mp hpos, rfl⟩

/-! ## The evaluator -/

omit [DecidableEq Acc] in
theorem rewrite_update (t : RecurrentTransfer Acc) (headBlockTime : Nat) (amount : Asset)
    {recurrence executions : UInt16} (hexec : 0 < executions) :
    t.Rewrite fun _ => { t.setRecurrenceTriggerDate headBlockTime recurrence with
      amount, remainingExecutions := executions } :=
  ⟨rfl, rfl, hexec⟩

theorem recurrentTransfer_index {fromAcc toAcc : Acc} {amount : Asset}
    {recurrence executions : UInt16} {extensions : List RecurrentTransferExtension} {u : Unit}
    (hexec : 0 < executions)
    (h : (recurrentTransfer fromAcc toAcc amount recurrence executions extensions).run s =
      .ok u s') :
    (∃ t : RecurrentTransfer Acc, t.id = s.nextId ∧ t.fromId = fromAcc ∧
        0 < t.remainingExecutions ∧ (∀ c ∈ s.transfers, c.key ≠ t.key) ∧
        s.openRecurrentTransfers fromAcc < hiveMaxOpenRecurrentTransfers ∧
        s'.index = (s.transfers ++ [t], Function.update s.openRecurrentTransfers fromAcc
          (s.openRecurrentTransfers fromAcc + 1), s.nextId + 1)) ∨
      (∃ t ∈ s.transfers, 0 < s.openRecurrentTransfers t.fromId ∧ s'.index = s.removedIndex t) ∨
      (∃ t ∈ s.transfers, ∃ g, t.Rewrite g ∧ s'.index = s.rewrittenIndex t g) := by
  obtain ⟨s₀, s₁, h₀, h₁⟩ := run_bind_eq_ok h
  cases h₀
  obtain ⟨-, h₂⟩ := run_throw_if_eq_ok h₁
  obtain ⟨-, h₃⟩ := run_throw_if_eq_ok h₂
  obtain ⟨-, h₄⟩ := run_throw_if_eq_ok h₃
  obtain ⟨rtpId, s₂, h₅, h₆⟩ := run_bind_eq_ok h₄
  obtain ⟨-, rfl⟩ := run_fromExcept_eq_ok h₅
  split at h₆
  · -- no transfer of the key: a new one
    rename_i hfind
    obtain ⟨hlimit, h₇⟩ := run_throw_if_eq_ok h₆
    obtain ⟨-, h₈⟩ := run_throw_if_eq_ok h₇
    obtain ⟨⟨⟩, s₃, h₉, h₁₀⟩ := run_bind_eq_ok h₈
    cases h₉
    obtain ⟨-, h₁₁⟩ := run_throw_if_eq_ok h₁₀
    cases h₁₁
    refine .inl ⟨_, rfl, rfl, hexec, fun c hc hkey => ?_, by omega, rfl⟩
    have hnone := List.find?_eq_none.mp hfind c hc
    simp only [decide_eq_true_eq] at hnone
    exact hnone hkey
  · rename_i t hfind
    have ht := List.mem_of_find?_eq_some hfind
    split at h₆
    · -- a zero amount: the transfer is removed
      obtain ⟨hpos, hidx⟩ := removeRecurrentTransfer_ok h₆
      exact .inr (.inl ⟨t, ht, hpos, hidx⟩)
    · -- otherwise it is changed in place
      obtain ⟨⟨⟩, s₃, h₇, h₈⟩ := run_bind_eq_ok h₆
      cases h₇
      obtain ⟨-, h₉⟩ := run_ite_throw_eq_ok h₈
      cases h₉
      exact .inr (.inr ⟨t, ht, _, rewrite_update t _ amount hexec, rfl⟩)

/-! ## The block step -/

omit [DecidableEq Acc] in
theorem rewrite_process (t : RecurrentTransfer Acc) {remainingExecutions : UInt16}
    (hr : ¬remainingExecutions = 0) (f : UInt8 → UInt8) :
    t.Rewrite fun rt => { rt with
      consecutiveFailures := f rt.consecutiveFailures
      triggerDate := rt.nextTriggerDate
      remainingExecutions } :=
  ⟨rfl, rfl, UInt16.pos_iff_ne_zero.mpr hr⟩

theorem removeOrRewrite_index {t : RecurrentTransfer Acc} {remainingExecutions : UInt16}
    {f : UInt8 → UInt8} {u : Unit}
    (h : (if remainingExecutions = 0 then removeRecurrentTransfer t else
      modify fun (s : RecurrentState Acc) => { s with
        transfers := updateKey RecurrentTransfer.id s.transfers t.id fun rt =>
          { rt with
            consecutiveFailures := f rt.consecutiveFailures
            triggerDate := rt.nextTriggerDate
            remainingExecutions } }).run s = .ok u s') :
    (0 < s.openRecurrentTransfers t.fromId ∧ s'.index = s.removedIndex t) ∨
      ∃ g, t.Rewrite g ∧ s'.index = s.rewrittenIndex t g := by
  split at h
  · exact .inl (removeRecurrentTransfer_ok h)
  · rename_i hr
    cases h
    exact .inr ⟨_, rewrite_process t hr f, rfl⟩

theorem processRecurrentTransfer_index {t : RecurrentTransfer Acc} {u : Unit}
    (h : (processRecurrentTransfer t).run s = .ok u s') :
    (0 < s.openRecurrentTransfers t.fromId ∧ s'.index = s.removedIndex t) ∨
      ∃ g, t.Rewrite g ∧ s'.index = s.rewrittenIndex t g := by
  obtain ⟨s₀, s₁, h₀, h₁⟩ := run_bind_eq_ok h
  cases h₀
  dsimp only at h₁
  obtain ⟨-, h₂⟩ := run_throw_if_eq_ok h₁
  split at h₂
  · -- paid: the balances change, then the end of the step
    obtain ⟨⟨⟩, s₂, h₃, h₄⟩ := run_bind_eq_ok h₂
    rw [recurrentOnChain_adjustBalance_ok h₃] at h₄
    obtain ⟨⟨⟩, s₃, h₅, h₆⟩ := run_bind_eq_ok h₄
    rw [recurrentOnChain_adjustBalance_ok h₅] at h₆
    have hend := removeOrRewrite_index (f := fun _ => 0) h₆
    exact hend
  · split at h₂
    · exact removeOrRewrite_index (f := fun c => c + 1) h₂
    · exact .inl (removeRecurrentTransfer_ok h₂)

/-! ## The invariant -/

/-- Unique ids below the next one, unique `by_from_to_id` keys, `open_recurrent_transfers`
counting each account's transfers up to the limit, and executions left on every transfer. -/
structure RecurrentInv (s : RecurrentState Acc) : Prop where
  nodup : (s.transfers.map RecurrentTransfer.id).Nodup
  lt_nextId : ∀ t ∈ s.transfers, t.id < s.nextId
  keys : (s.transfers.map RecurrentTransfer.key).Nodup
  counts : Counts RecurrentTransfer.fromId s.openRecurrentTransfers s.transfers
  open_le : ∀ a, s.openRecurrentTransfers a ≤ hiveMaxOpenRecurrentTransfers
  remaining_pos : ∀ t ∈ s.transfers, 0 < t.remainingExecutions

omit [DecidableEq Acc] in
theorem RecurrentState.index_eq {l : List (RecurrentTransfer Acc)} {c : Acc → Nat} {n : Nat} :
    s.index = (l, c, n) ↔ s.transfers = l ∧ s.openRecurrentTransfers = c ∧ s.nextId = n := by
  simp [RecurrentState.index]

theorem RecurrentInv.of_index (hs : RecurrentInv s) (h : s'.index = s.index) : RecurrentInv s' := by
  obtain ⟨ht, hc, hn⟩ := RecurrentState.index_eq.mp h
  exact ⟨ht ▸ hs.nodup, ht ▸ hn ▸ hs.lt_nextId, ht ▸ hs.keys, ht ▸ hc ▸ hs.counts, hc ▸ hs.open_le,
    ht ▸ hs.remaining_pos⟩

theorem RecurrentInv.open_pos (hs : RecurrentInv s) {t : RecurrentTransfer Acc}
    (ht : t ∈ s.transfers) : 0 < s.openRecurrentTransfers t.fromId := by
  rw [hs.counts t.fromId]
  exact List.countP_pos_iff.mpr ⟨t, ht, by simp⟩

theorem RecurrentInv.remove (hs : RecurrentInv s) {t : RecurrentTransfer Acc}
    (ht : t ∈ s.transfers) (h : s'.index = s.removedIndex t) : RecurrentInv s' := by
  obtain ⟨htr, hc, hn⟩ := RecurrentState.index_eq.mp h
  have hsub : (s.transfers.filter fun c => c.id ≠ t.id).Sublist s.transfers := List.filter_sublist
  refine ⟨?_, fun c hc' => ?_, ?_, ?_, fun a => ?_, fun c hc' => ?_⟩
  · rw [htr]
    exact hs.nodup.sublist (hsub.map _)
  · rw [htr] at hc'
    rw [hn]
    exact hs.lt_nextId c (hsub.subset hc')
  · rw [htr]
    exact hs.keys.sublist (hsub.map _)
  · rw [htr, hc]
    exact hs.counts.filter_key hs.nodup ht
  · rw [hc]
    by_cases ha : a = t.fromId
    · subst ha
      simp only [Function.update_self]
      exact (Nat.sub_le _ _).trans (hs.open_le t.fromId)
    · rw [Function.update_of_ne ha]
      exact hs.open_le a
  · rw [htr] at hc'
    exact hs.remaining_pos c (hsub.subset hc')

omit [DecidableEq Acc] in
theorem mem_rewritten {l : List (RecurrentTransfer Acc)} (hnd : (l.map RecurrentTransfer.id).Nodup)
    {t : RecurrentTransfer Acc} (ht : t ∈ l) {g : RecurrentTransfer Acc → RecurrentTransfer Acc}
    {c : RecurrentTransfer Acc} (hc : c ∈ updateKey RecurrentTransfer.id l t.id g) :
    c = g t ∨ c ∈ l := by
  obtain ⟨x, hx, ⟨hxk, rfl⟩ | ⟨-, rfl⟩⟩ := (mem_updateKey_iff RecurrentTransfer.id).mp hc
  · exact .inl (by rw [eq_of_key_eq RecurrentTransfer.id hnd hx ht hxk])
  · exact .inr hx

theorem RecurrentInv.rewrite (hs : RecurrentInv s) {t : RecurrentTransfer Acc}
    (ht : t ∈ s.transfers) {g : RecurrentTransfer Acc → RecurrentTransfer Acc} (hg : t.Rewrite g)
    (h : s'.index = s.rewrittenIndex t g) : RecurrentInv s' := by
  obtain ⟨htr, hc, hn⟩ := RecurrentState.index_eq.mp h
  have hone : ∀ y ∈ s.transfers, y.id = t.id → y = t := fun y hy hid =>
    eq_of_key_eq RecurrentTransfer.id hs.nodup hy ht hid
  refine ⟨?_, fun c hc' => ?_, ?_, ?_, fun a => ?_, fun c hc' => ?_⟩
  · rw [htr, map_updateKey_of_mem RecurrentTransfer.id RecurrentTransfer.id fun y hy hid => by
      obtain rfl := hone y hy hid
      exact hg.id_eq]
    exact hs.nodup
  · rw [htr] at hc'
    rw [hn]
    rcases mem_rewritten hs.nodup ht hc' with rfl | hc'
    · rw [hg.id_eq]
      exact hs.lt_nextId t ht
    · exact hs.lt_nextId c hc'
  · rw [htr, map_updateKey_of_mem RecurrentTransfer.id RecurrentTransfer.key fun y hy hid => by
      obtain rfl := hone y hy hid
      exact hg.key_eq]
    exact hs.keys
  · rw [htr, hc]
    exact hs.counts.updateKey hs.nodup ht g (congrArg Prod.fst hg.key_eq)
  · rw [hc]
    exact hs.open_le a
  · rw [htr] at hc'
    rcases mem_rewritten hs.nodup ht hc' with rfl | hc'
    · exact hg.remaining_pos
    · exact hs.remaining_pos c hc'

theorem RecurrentInv.create (hs : RecurrentInv s) {t : RecurrentTransfer Acc}
    (hid : t.id = s.nextId) (hpos : 0 < t.remainingExecutions)
    (hfresh : ∀ c ∈ s.transfers, c.key ≠ t.key)
    (hlimit : s.openRecurrentTransfers t.fromId < hiveMaxOpenRecurrentTransfers)
    (h : s'.index = (s.transfers ++ [t], Function.update s.openRecurrentTransfers t.fromId
      (s.openRecurrentTransfers t.fromId + 1), s.nextId + 1)) : RecurrentInv s' := by
  obtain ⟨htr, hc, hn⟩ := RecurrentState.index_eq.mp h
  refine ⟨?_, fun c hc' => ?_, ?_, ?_, fun a => ?_, fun c hc' => ?_⟩
  · rw [htr]
    refine nodup_map_append_of_fresh _ hs.nodup fun c hc' hcid => ?_
    have := hs.lt_nextId c hc'
    omega
  · rw [htr] at hc'
    rw [hn]
    rcases List.mem_append.mp hc' with hc' | hc'
    · exact Nat.lt_succ_of_lt (hs.lt_nextId c hc')
    · rw [List.mem_singleton.mp hc', hid]
      exact Nat.lt_succ_self _
  · rw [htr]
    exact nodup_map_append_of_fresh _ hs.keys hfresh
  · rw [htr, hc]
    exact hs.counts.append t
  · rw [hc]
    by_cases ha : a = t.fromId
    · subst ha
      simp only [Function.update_self]
      omega
    · rw [Function.update_of_ne ha]
      exact hs.open_le a
  · rw [htr] at hc'
    rcases List.mem_append.mp hc' with hc' | hc'
    · exact hs.remaining_pos c hc'
    · rw [List.mem_singleton.mp hc']
      exact hpos

/-! ## The invariant over the evaluator and the block step -/

theorem recurrentTransfer_inv {fromAcc toAcc : Acc} {amount : Asset}
    {recurrence executions : UInt16} {extensions : List RecurrentTransferExtension} {u : Unit}
    (hs : RecurrentInv s) (hexec : 0 < executions)
    (h : (recurrentTransfer fromAcc toAcc amount recurrence executions extensions).run s =
      .ok u s') : RecurrentInv s' := by
  rcases recurrentTransfer_index hexec h with
    ⟨t, hid, rfl, hpos, hfresh, hlimit, hidx⟩ | ⟨t, ht, -, hidx⟩ | ⟨t, ht, g, hg, hidx⟩
  · exact hs.create hid hpos hfresh hlimit hidx
  · exact hs.remove ht hidx
  · exact hs.rewrite ht hg hidx

theorem processRecurrentTransfer_inv {t : RecurrentTransfer Acc} {u : Unit} (hs : RecurrentInv s)
    (ht : t ∈ s.transfers) (h : (processRecurrentTransfer t).run s = .ok u s') :
    RecurrentInv s' ∧ ∀ c ∈ s.transfers, c.id ≠ t.id → c ∈ s'.transfers := by
  rcases processRecurrentTransfer_index h with ⟨-, hidx⟩ | ⟨g, hg, hidx⟩
  · refine ⟨hs.remove ht hidx, fun c hc hne => ?_⟩
    rw [(RecurrentState.index_eq.mp hidx).1]
    exact List.mem_filter.mpr ⟨hc, by simpa using hne⟩
  · refine ⟨hs.rewrite ht hg hidx, fun c hc hne => ?_⟩
    rw [(RecurrentState.index_eq.mp hidx).1]
    exact mem_updateKey_of_ne RecurrentTransfer.id hc hne

omit [DecidableEq Acc] in
theorem RecurrentTransfer.before_irrefl (t : RecurrentTransfer Acc) : t.before t = false := by
  simp [RecurrentTransfer.before]

omit [DecidableEq Acc] in
theorem firstByTriggerDate_spec {ts : List (RecurrentTransfer Acc)}
    {after : Option (RecurrentTransfer Acc)} {c : RecurrentTransfer Acc}
    (h : firstByTriggerDate ts after = some c) :
    c ∈ ts ∧ after.all (fun a => a.before c) = true := by
  unfold firstByTriggerDate at h
  have key : ∀ (l : List (RecurrentTransfer Acc)) (best : Option (RecurrentTransfer Acc)),
      (∀ x ∈ l, x ∈ ts) →
      (∀ b, best = some b → b ∈ ts ∧ after.all (fun a => a.before b) = true) →
      ∀ b, l.foldl (fun best c =>
          if after.all (fun a => a.before c) && best.all (fun b => c.before b) then some c
          else best) best = some b →
        b ∈ ts ∧ after.all (fun a => a.before b) = true := by
    intro l
    induction l with
    | nil => exact fun best _ hbest => hbest
    | cons x l ih =>
      intro best hl hbest
      refine ih _ (fun y hy => hl y (List.mem_cons_of_mem x hy)) fun b hb => ?_
      dsimp only at hb
      split at hb
      · rename_i hx
        cases hb
        exact ⟨hl x List.mem_cons_self, (Bool.and_eq_true_iff.mp hx).1⟩
      · exact hbest b hb
  exact key ts none (fun x hx => hx) (fun b hb => by cases hb) c h

theorem processRecurrentTransfersLoop_inv (now left : Nat) :
    ∀ {cur : Option (RecurrentTransfer Acc)} {s s' : RecurrentState Acc} {u : Unit},
      RecurrentInv s → (∀ t, cur = some t → t ∈ s.transfers) →
      (processRecurrentTransfersLoop now left cur).run s = .ok u s' → RecurrentInv s' := by
  induction left with
  | zero =>
    intro cur s s' u hs _ h
    cases cur with
    | none =>
      cases h
      exact hs
    | some t =>
      simp only [processRecurrentTransfersLoop] at h
      split at h <;> (cases h; exact hs)
  | succ left ih =>
    intro cur s s' u hs hcur h
    cases cur with
    | none =>
      cases h
      exact hs
    | some t =>
      simp only [processRecurrentTransfersLoop] at h
      split at h
      · obtain ⟨s₀, s₁, h₀, h₁⟩ := run_bind_eq_ok h
        cases h₀
        obtain ⟨⟨⟩, s₂, h₂, h₃⟩ := run_bind_eq_ok h₁
        have ht := hcur t rfl
        obtain ⟨hs₂, hkeep⟩ := processRecurrentTransfer_inv hs ht h₂
        refine ih hs₂ (fun c hc => ?_) h₃
        obtain ⟨hcmem, hafter⟩ := firstByTriggerDate_spec hc
        -- the next object comes after `t`, so it is another object and still there
        refine hkeep c hcmem fun hid => ?_
        have hct : c = t := eq_of_key_eq RecurrentTransfer.id hs.nodup hcmem ht hid
        rw [hct] at hafter
        simp [RecurrentTransfer.before_irrefl] at hafter
      · cases h
        exact hs

theorem processRecurrentTransfers_inv {u : Unit} (hs : RecurrentInv s)
    (h : processRecurrentTransfers.run s = .ok u s') : RecurrentInv s' := by
  obtain ⟨s₀, s₁, h₀, h₁⟩ := run_bind_eq_ok h
  cases h₀
  split at h₁
  · exact processRecurrentTransfersLoop_inv _ _ hs (fun t ht => (firstByTriggerDate_spec ht).1) h₁
  · cases h₁
    exact hs

theorem RecurrentOp.apply_inv {op : RecurrentOp Acc} {u : Unit} (hs : RecurrentInv s)
    (h : op.apply.run s = .ok u s') : RecurrentInv s' := by
  cases op with
  | recurrentTransfer fromAcc toAcc amount recurrence executions extensions =>
    simp only [RecurrentOp.apply] at h
    obtain ⟨-, h₁⟩ := run_throw_if_eq_ok h
    obtain ⟨-, h₂⟩ := run_throw_if_eq_ok h₁
    obtain ⟨-, h₃⟩ := run_throw_if_eq_ok h₂
    obtain ⟨hexec, h₄⟩ := run_throw_if_eq_ok h₃
    have hpos : 0 < executions := by
      rw [UInt16.lt_iff_toNat_lt] at hexec ⊢
      simp only [UInt16.toNat_zero] at hexec ⊢
      simp at hexec
      omega
    exact recurrentTransfer_inv hs hpos h₄
  | processRecurrentTransfers => exact processRecurrentTransfers_inv hs h

theorem RecurrentOp.run_inv (op : RecurrentOp Acc) (hs : RecurrentInv s) :
    RecurrentInv (op.run s) := by
  unfold RecurrentOp.run
  split
  · rename_i h
    exact RecurrentOp.apply_inv hs h
  · exact hs

theorem runRecurrentOps_inv (ops : List (RecurrentOp Acc)) :
    ∀ {s : RecurrentState Acc}, RecurrentInv s → RecurrentInv (runRecurrentOps ops s) := by
  induction ops with
  | nil => exact fun hs => hs
  | cons op ops ih => exact fun hs => ih (op.run_inv hs)

/-! ## The hardfork -/

theorem recurrentOnChain_adjustBalance_hardfork (a : Acc) (delta : Asset) :
    Moves (fun s : RecurrentState Acc => s.chain.hardfork) Eq (recurrentOnChain (adjustBalance a delta)) :=
  Moves.of_eq fun _ _ _ h => by
    rw [recurrentOnChain_adjustBalance_ok h]
    exact creditBalance_hardfork _ _ _

theorem removeRecurrentTransfer_hardfork (t : RecurrentTransfer Acc) :
    Moves (fun s : RecurrentState Acc => s.chain.hardfork) Eq (removeRecurrentTransfer t) := by
  unfold removeRecurrentTransfer
  exact Moves.bind (moves_modify fun _ => rfl) fun _ => Moves.bind moves_get fun _ =>
    Moves.throw_if (moves_modify fun _ => rfl)

theorem recurrentTransfer_hardfork (fromAcc toAcc : Acc) (amount : Asset) (recurrence executions : UInt16)
    (extensions : List RecurrentTransferExtension) :
    Moves (fun s : RecurrentState Acc => s.chain.hardfork) Eq
      (recurrentTransfer fromAcc toAcc amount recurrence executions extensions) := by
  unfold recurrentTransfer
  refine Moves.bind moves_get fun s => Moves.throw_if <| Moves.throw_if <| Moves.throw_if <|
    Moves.bind (moves_fromExcept _) fun rtpId => ?_
  split
  · exact Moves.throw_if <| Moves.throw_if <| Moves.bind (moves_modify fun _ => rfl) fun _ =>
      Moves.throw_if (moves_modify fun _ => rfl)
  · exact Moves.ite (removeRecurrentTransfer_hardfork _) <| Moves.bind (moves_modify fun _ => rfl) fun _ =>
      Moves.ite (moves_throw _) (moves_pure _)

theorem processRecurrentTransfer_hardfork (t : RecurrentTransfer Acc) :
    Moves (fun s : RecurrentState Acc => s.chain.hardfork) Eq (processRecurrentTransfer t) := by
  unfold processRecurrentTransfer
  refine Moves.bind moves_get fun s => Moves.throw_if <| Moves.ite ?paid ?failed
  case paid =>
    exact Moves.bind (recurrentOnChain_adjustBalance_hardfork _ _) fun _ =>
      Moves.bind (recurrentOnChain_adjustBalance_hardfork _ _) fun _ =>
      Moves.ite (removeRecurrentTransfer_hardfork t) (moves_modify fun _ => rfl)
  case failed =>
    exact Moves.ite (Moves.ite (removeRecurrentTransfer_hardfork t) (moves_modify fun _ => rfl))
      (removeRecurrentTransfer_hardfork t)

theorem processRecurrentTransfersLoop_hardfork (now : Nat) :
    ∀ (left : Nat) (t : Option (RecurrentTransfer Acc)),
      Moves (fun s : RecurrentState Acc => s.chain.hardfork) Eq (processRecurrentTransfersLoop now left t)
  | _, none => by
    unfold processRecurrentTransfersLoop
    exact moves_pure _
  | 0, some t => by
    unfold processRecurrentTransfersLoop
    exact Moves.ite (moves_pure _) (moves_pure _)
  | left + 1, some t => by
    unfold processRecurrentTransfersLoop
    exact Moves.ite (Moves.bind moves_get fun _ => Moves.bind (processRecurrentTransfer_hardfork t) fun _ =>
      processRecurrentTransfersLoop_hardfork now left _) (moves_pure _)

theorem RecurrentOp.run_hardfork (op : RecurrentOp Acc) (s : RecurrentState Acc) :
    (op.run s).chain.hardfork = s.chain.hardfork := by
  have happly : Moves (fun s : RecurrentState Acc => s.chain.hardfork) Eq op.apply := by
    cases op with
    | recurrentTransfer fromAcc toAcc amount recurrence executions extensions =>
      unfold RecurrentOp.apply
      exact Moves.throw_if <| Moves.throw_if <| Moves.throw_if <| Moves.throw_if <|
        recurrentTransfer_hardfork _ _ _ _ _ _
    | processRecurrentTransfers =>
      unfold RecurrentOp.apply
      dsimp only
      unfold Chain.processRecurrentTransfers
      exact Moves.bind moves_get fun _ => Moves.ite (processRecurrentTransfersLoop_hardfork _ _ _) (moves_pure _)
  unfold RecurrentOp.run
  split
  · rename_i h
    exact happly.view_eq h
  · rfl

/-- The recurrent transfers stay a sound index over every run: from none, after any sequence of
`recurrent_transfer` operations (create, update, delete) and `process_recurrent_transfers` blocks,
each applied or undone, the ids are distinct and below the next id, there is one transfer per
`(from, to, pair_id)`, every stored transfer has executions left, and no account has more than
`HIVE_MAX_OPEN_RECURRENT_TRANSFERS` of them. -/
theorem recurrent_transfers_stay_indexed (ops : List (RecurrentOp Acc)) (chain : MarketState Acc) :
    let s := runRecurrentOps ops ⟨chain, [], fun _ => 0, 0⟩
    (s.transfers.map RecurrentTransfer.id).Nodup ∧ (∀ t ∈ s.transfers, t.id < s.nextId) ∧
      (s.transfers.map RecurrentTransfer.key).Nodup ∧ (∀ t ∈ s.transfers, 0 < t.remainingExecutions) ∧
      ∀ a, s.transfers.countP (fun t => t.fromId = a) ≤ hiveMaxOpenRecurrentTransfers := by
  intro s
  have hs : RecurrentInv s := runRecurrentOps_inv ops
    ⟨List.nodup_nil, fun _ h => absurd h List.not_mem_nil, List.nodup_nil, fun _ => rfl,
      fun _ => Nat.zero_le _, fun _ h => absurd h List.not_mem_nil⟩
  exact ⟨hs.nodup, hs.lt_nextId, hs.keys, hs.remaining_pos, fun a => hs.counts a ▸ hs.open_le a⟩

/-! ## The end-date check -/

def recurrentOverflowSample : RecurrentState (Fin 2) where
  chain :=
    { hardfork := 28
      headBlockTime := 1700000000
      headBlockIdWord := 0
      hbdInterestRate := 0
      currentHbdSupply := 0
      balance := fun a => if a = 0 then 1000 else 0
      hbdBalance := fun _ => 0
      hbdSeconds := fun _ => 0
      hbdSecondsLastUpdate := fun _ => 0
      hbdLastInterestPayment := fun _ => 0
      orders := []
      nextId := 0 }
  transfers := []
  openRecurrentTransfers _ := 0
  nextId := 0

/-- A recurrence of 65535 hours and 65535 executions: the `int` product 65535 * 65534 overflows,
the final trigger date comes out in the past, and the evaluator accepts a transfer whose last
execution is about 490000 years away. -/
theorem recurrent_transfer_end_date_overflow :
    2 ^ 31 - 1 < 65535 * (65535 - 1) ∧
      ∃ s', (RecurrentOp.recurrentTransfer (0 : Fin 2) 1 ⟨1, .hive⟩ 65535 65535 []).apply.run
          recurrentOverflowSample = .ok () s' ∧
        s'.transfers = [⟨0, 1700000000, 0, 1, ⟨1, .hive⟩, 65535, 65535, 0, 0⟩] ∧
        (⟨0, 1700000000, 0, 1, ⟨1, .hive⟩, 65535, 65535, 0, 0⟩ : RecurrentTransfer (Fin 2)).getFinalTriggerDate =
          992218400 ∧
        1700000000 + hiveMaxRecurrentTransferEndDate * 86400 < 1700000000 + 3600 * (65535 * (65535 - 1)) :=
  ⟨by decide, _, rfl, rfl, by decide, by decide⟩

end Chain
end HiveChain
