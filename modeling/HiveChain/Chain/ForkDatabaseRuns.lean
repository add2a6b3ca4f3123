import HiveChain.Chain.ForkDatabaseSpec

/-!
# HiveChain.Chain.ForkDatabaseRuns

The fork database over whole runs of the calls the chain makes on it.

* `push_block_returns_highest` — in every database `start_block` and `push_block` build, the
  head is a linked block that no linked block is higher than, and `push_block` returns it.
* `push_next_depth_suffices` — `_push_next` never recurses deeper than the cache holds blocks:
  any bound above that gives the same run.
* `cache_waits_for_parent` — no cached block's previous block is linked: every `push_block`
  links the cached descendants of the block it links, recursively.
* `fork_calls_keep_links` — every sequence of calls, `pop_block`, `remove` and `set_max_size`
  among them, keeps one item per id, every `prev` naming the previous block, and the cache
  unlinked.
* `walk_main_branch_finds_ancestor`, `main_branch_fetch_agrees_with_walk` and
  `main_branch_range_is_segment` — the queries of the main branch return the head's ancestors.
* `set_max_size_erases_up_to` — the loops of `set_max_size` erase exactly the blocks at or below
  the threshold.
* `range_of_no_blocks` — asking `fetch_block_range_on_main_branch_by_number` for no blocks gives
  none, except from block 0, where the last number wraps round as a `uint32_t` and the whole
  branch comes back.
-/

namespace HiveChain
namespace Chain

open EState ParentMap

namespace ForkDatabase

variable {db : ForkDatabase}

@[simp] theorem insertUnlinked_index (item : ForkItem) : (db.insertUnlinked item).index = db.index := by
  unfold insertUnlinked
  split <;> rfl

@[simp] theorem insertUnlinked_head (item : ForkItem) : (db.insertUnlinked item).head = db.head := by
  unfold insertUnlinked
  split <;> rfl

/-! ## One level of `_push_next` -/

/-- The body of the loop of `_push_next`: the block taken from the cache is pushed, its assertion
failures swallowed. -/
def pushNextBody (fuel : Nat) (tmp : ForkItem) : ForkM Unit :=
  tryCatch (do let tmp ← linkBlock tmp; pushNext fuel tmp) fun
    | .assert _ => pure ()
    | e => throw e

theorem run_pushNext_none {fuel : Nat} {newItem : ForkItem}
    (h : db.unlinkedIndex.find? (fun x => x.previousId = newItem.blockId) = none) :
    (pushNext (fuel + 1) newItem).run db = .ok () db := by
  rw [pushNext.eq_2, run_bind_ok (run_get db), h]
  rfl

theorem run_pushNext_some {fuel : Nat} {newItem tmp : ForkItem}
    (h : db.unlinkedIndex.find? (fun x => x.previousId = newItem.blockId) = some tmp) :
    (pushNext (fuel + 1) newItem).run db =
      (pushNextBody fuel tmp >>= fun _ => pushNext fuel newItem).run
        { db with unlinkedIndex := db.unlinkedIndex.erase tmp } := by
  rw [pushNext.eq_2, run_bind_ok (run_get db), h]
  dsimp only
  rw [run_bind_ok (run_modify _ db)]
  rfl

theorem find?_previousId_eq_some {id : BlockId} {tmp : ForkItem}
    (h : db.unlinkedIndex.find? (fun x => x.previousId = id) = some tmp) :
    tmp ∈ db.unlinkedIndex ∧ tmp.previousId = id :=
  ⟨List.mem_of_find?_eq_some h, of_decide_eq_true (List.find?_some (p := fun x : ForkItem => decide (x.previousId = id)) h)⟩

/-- Taking the block out of the cache leaves one level less of `_push_next` to bound it. -/
theorem length_erase_lt {tmp : ForkItem} {fuel : Nat} (htmp : tmp ∈ db.unlinkedIndex)
    (hlen : db.unlinkedIndex.length < fuel + 1) : (db.unlinkedIndex.erase tmp).length < fuel := by
  rw [List.length_erase_of_mem htmp]
  have := List.length_pos_of_mem htmp
  omega

theorem linkBlock_unlinkedIndex {item item' : ForkItem} {db' : ForkDatabase}
    (h : (linkBlock item).run db = .ok item' db') : db'.unlinkedIndex = db.unlinkedIndex := by
  cases hlink : db.linkItem item with
  | error e =>
    rw [run_linkBlock_error hlink] at h
    cases h
  | ok item'' =>
    rw [run_linkBlock_ok hlink] at h
    cases h
    exact add_unlinkedIndex _

/-! ## Invariants kept by `push_block` -/

section Keeps

variable {P : ForkDatabase → Prop} {Q : ForkItem → Prop}

theorem keeps_linkBlock_of {item : ForkItem} (hadd : ∀ db item', P db → db.linkItem item = .ok item' → P (db.add item')) :
    Keeps P (linkBlock item) := by
  intro db hdb
  cases hlink : db.linkItem item with
  | error e =>
    rw [run_linkBlock_error hlink]
    exact hdb
  | ok item' =>
    rw [run_linkBlock_ok hlink]
    exact hadd db item' hdb hlink

theorem keeps_pushNextBody {fuel : Nat} {tmp : ForkItem} (hq : Q tmp)
    (hadd : ∀ db item item', P db → Q item → db.linkItem item = .ok item' → P (db.add item'))
    (hnext : ∀ item, Keeps P (pushNext fuel item)) : Keeps P (pushNextBody fuel tmp) := by
  refine ((keeps_linkBlock_of fun s item' hs hlink => hadd s tmp item' hs hq hlink).bind hnext).tryCatch ?_
  intro e
  cases e with
  | assert msg => exact keeps_pure _
  | unlinkable => exact keeps_throw _

theorem keeps_pushNext_of (hfresh : ∀ db, P db → ∀ x ∈ db.unlinkedIndex, Q x)
    (hadd : ∀ db item item', P db → Q item → db.linkItem item = .ok item' → P (db.add item'))
    (herase : ∀ db x, P db → P { db with unlinkedIndex := db.unlinkedIndex.erase x }) :
    ∀ (fuel : Nat) (newItem : ForkItem), Keeps P (pushNext fuel newItem) := by
  intro fuel
  -- induction on the depth left, each level keeping the invariant through its body
  induction fuel with
  | zero => exact fun _ => keeps_pure _
  | succ fuel ih =>
    intro newItem db hdb
    cases hfind : db.unlinkedIndex.find? (fun x => x.previousId = newItem.blockId) with
    | none =>
      rw [run_pushNext_none hfind]
      exact hdb
    | some tmp =>
      rw [run_pushNext_some hfind]
      have hq : Q tmp := hfresh db hdb tmp (List.mem_of_find?_eq_some hfind)
      exact ((keeps_pushNextBody hq hadd ih).bind fun _ => ih newItem) _ (herase db tmp hdb)

theorem keeps_pushBlock_of (hfresh : ∀ db, P db → ∀ x ∈ db.unlinkedIndex, Q x)
    (hadd : ∀ db item item', P db → Q item → db.linkItem item = .ok item' → P (db.add item'))
    (herase : ∀ db x, P db → P { db with unlinkedIndex := db.unlinkedIndex.erase x })
    (hcache : ∀ db (fullBlock : FullBlock), P db → P (db.insertUnlinked { fullBlock }))
    (hnew : ∀ fullBlock : FullBlock, Q { fullBlock }) (fullBlock : FullBlock) :
    Keeps P (pushBlock fullBlock) := by
  unfold pushBlock
  refine keeps_get_bind fun db hdb => ?_
  refine (Keeps.bind ?_ fun _ => keeps_get_bind (f := fun s => pure s.head) fun s hs => hs) db hdb
  refine ((keeps_linkBlock_of fun s item' hs hlink => hadd s _ item' hs (hnew fullBlock) hlink).bind fun item =>
    keeps_pushNext_of hfresh hadd herase _ item).tryCatch fun e => ?_
  cases e with
  | assert msg => exact keeps_throw _
  | unlinkable => exact (keeps_modify fun s hs => hcache s fullBlock hs).bind fun _ => keeps_throw _

end Keeps

/-! ## The depth of `_push_next` -/

theorem keeps_cache_le (n fuel : Nat) (newItem : ForkItem) :
    Keeps (fun db : ForkDatabase => db.unlinkedIndex.length ≤ n) (pushNext fuel newItem) :=
  keeps_pushNext_of (P := fun db : ForkDatabase => db.unlinkedIndex.length ≤ n) (Q := fun _ => True)
    (fun _ _ _ _ => trivial) (fun _ _ _ h _ _ => by rwa [add_unlinkedIndex])
    (fun _ _ h => le_trans List.length_erase_le h) fuel newItem

theorem pushNextBody_cache_le {fuel : Nat} {tmp : ForkItem} {a : PUnit} {db' : ForkDatabase}
    (h : (pushNextBody fuel tmp).run db = .ok a db') : db'.unlinkedIndex.length ≤ db.unlinkedIndex.length := by
  have hkeep : Keeps (fun s : ForkDatabase => s.unlinkedIndex.length ≤ db.unlinkedIndex.length) (pushNextBody fuel tmp) :=
    keeps_pushNextBody (Q := fun _ => True) trivial (fun _ _ _ h _ _ => by rwa [add_unlinkedIndex]) (keeps_cache_le _ fuel)
  have hle := hkeep db le_rfl
  rwa [h] at hle

theorem pushNext_succ_eq : ∀ (fuel : Nat) (newItem : ForkItem) (db : ForkDatabase),
    db.unlinkedIndex.length < fuel → (pushNext (fuel + 1) newItem).run db = (pushNext fuel newItem).run db
  | 0, _, _, h => absurd h (Nat.not_lt_zero _)
  | fuel + 1, newItem, db, h => by
    cases hfind : db.unlinkedIndex.find? (fun x => x.previousId = newItem.blockId) with
    | none => rw [run_pushNext_none hfind, run_pushNext_none hfind]
    | some tmp =>
      rw [run_pushNext_some hfind, run_pushNext_some hfind]
      have hlen : (db.unlinkedIndex.erase tmp).length < fuel :=
        length_erase_lt (List.mem_of_find?_eq_some hfind) h
      have hbody : (pushNextBody (fuel + 1) tmp).run { db with unlinkedIndex := db.unlinkedIndex.erase tmp } =
          (pushNextBody fuel tmp).run { db with unlinkedIndex := db.unlinkedIndex.erase tmp } :=
        run_tryCatch_congr (run_bind_congr rfl fun item' db' hlink =>
          pushNext_succ_eq fuel item' db' (by rw [linkBlock_unlinkedIndex hlink]; exact hlen))
      refine run_bind_congr hbody fun _ db' hrun => ?_
      exact pushNext_succ_eq fuel newItem db' (lt_of_le_of_lt (pushNextBody_cache_le hrun) hlen)

theorem pushNext_fuel_add {newItem : ForkItem} {fuel : Nat} (h : db.unlinkedIndex.length < fuel) :
    ∀ extra, (pushNext (fuel + extra) newItem).run db = (pushNext fuel newItem).run db
  | 0 => rfl
  | extra + 1 => (pushNext_succ_eq (fuel + extra) newItem db (by omega)).trans (pushNext_fuel_add h extra)

/-- `_push_next` recurses no deeper than the cache holds blocks: `push_block` bounds its depth by
the size of the cache plus one, and any larger bound gives the same run, so the bound never cuts
the recursion short. -/
theorem push_next_depth_suffices (item : ForkItem) (db : ForkDatabase) (extra : Nat) :
    (pushBlockAux (db.unlinkedIndex.length + 1 + extra) item).run db =
      (pushBlockAux (db.unlinkedIndex.length + 1) item).run db := by
  unfold pushBlockAux
  refine run_bind_congr rfl fun item' db' hlink => ?_
  exact pushNext_fuel_add (by rw [linkBlock_unlinkedIndex hlink]; omega) extra

/-! ## The head -/

/-- The head is a block of the index, and no block of the index is higher. -/
def Headed (db : ForkDatabase) : Prop :=
  ∃ h, db.head = some h ∧ h ∈ db.index ∧ ∀ x ∈ db.index, x.blockNum ≤ h.blockNum

theorem Headed.of_eq {db' : ForkDatabase} (hd : db.Headed) (hi : db'.index = db.index) (hh : db'.head = db.head) :
    db'.Headed := by
  rw [Headed, hi, hh]
  exact hd

theorem Headed.add (hd : db.Headed) (item : ForkItem) : (db.add item).Headed := by
  obtain ⟨h, hh, hmem, hmax⟩ := hd
  unfold ForkDatabase.add ForkDatabase.insert
  by_cases hknown : db.index.any fun x => x.blockId = item.blockId
  · -- nothing is inserted, and the block is no higher than the head
    obtain ⟨x, hx, hid⟩ := List.any_eq_true.1 hknown
    have hle : item.blockNum ≤ h.blockNum := by
      rw [ForkItem.blockNum, ← of_decide_eq_true hid]
      exact hmax x hx
    simp only [hknown, if_true, hh, Option.all_some, decide_eq_true_eq, if_neg (Nat.not_lt.2 hle)]
    exact ⟨h, hh, hmem, hmax⟩
  · simp only [hknown, Bool.false_eq_true, if_false, hh, Option.all_some, decide_eq_true_eq]
    split
    · rename_i hlt
      refine ⟨item, rfl, List.mem_append_right _ (List.mem_singleton_self _), fun x hx => ?_⟩
      rcases List.mem_append.1 hx with hx | hx
      · exact Nat.le_of_lt (Nat.lt_of_le_of_lt (hmax x hx) hlt)
      · rw [List.mem_singleton.1 hx]
    · rename_i hge
      refine ⟨h, rfl, List.mem_append_left _ hmem, fun x hx => ?_⟩
      rcases List.mem_append.1 hx with hx | hx
      · exact hmax x hx
      · rw [List.mem_singleton.1 hx]
        omega

theorem keeps_headed_pushBlock (fullBlock : FullBlock) : Keeps Headed (pushBlock fullBlock) :=
  keeps_pushBlock_of (Q := fun _ => True) (fun _ _ _ _ => trivial) (fun _ _ item' hd _ _ => hd.add item')
    (fun _ _ hd => hd.of_eq rfl rfl) (fun _ _ hd => hd.of_eq (insertUnlinked_index _) (insertUnlinked_head _))
    (fun _ => trivial) fullBlock

theorem Reachable.headed (h : db.Reachable) : db.Headed := by
  induction h with
  | start fullBlock maxSize =>
    refine ⟨_, rfl, ?_, ?_⟩ <;> simp [startBlock, ForkDatabase.insert]
  | push fullBlock _ ih => exact keeps_headed_pushBlock fullBlock _ ih

theorem pushBlock_returns_head {fullBlock : FullBlock} {r : Option ForkItem} {db' : ForkDatabase}
    (hrun : (pushBlock fullBlock).run db = .ok r db') : r = db'.head := by
  unfold pushBlock at hrun
  rw [run_bind_ok (run_get db)] at hrun
  obtain ⟨⟨⟩, s, -, hrest⟩ := run_bind_eq_ok hrun
  rw [run_bind_ok (run_get s)] at hrest
  cases hrest
  rfl

/-! ## The cache -/

/-- No cached block's previous block is linked: the cache holds blocks that wait for theirs. -/
def Waiting (db : ForkDatabase) : Prop := ∀ c ∈ db.unlinkedIndex, ∀ p ∈ db.index, p.blockId ≠ c.previousId

/-- What a run of `_push_next` does to the rest of the database: blocks are only linked, and
the cache does not grow. -/
structure Grows (db db' : ForkDatabase) : Prop where
  index : ∀ x ∈ db.index, x ∈ db'.index
  cache : db'.unlinkedIndex.length ≤ db.unlinkedIndex.length

theorem Grows.refl (db : ForkDatabase) : Grows db db := ⟨fun _ hx => hx, le_rfl⟩

theorem Grows.trans {db₁ db₂ db₃ : ForkDatabase} (h₁ : Grows db₁ db₂) (h₂ : Grows db₂ db₃) : Grows db₁ db₃ :=
  ⟨fun x hx => h₂.index x (h₁.index x hx), le_trans h₂.cache h₁.cache⟩

theorem Grows.erase (tmp : ForkItem) : Grows db { db with unlinkedIndex := db.unlinkedIndex.erase tmp } :=
  ⟨fun _ hx => hx, List.length_erase_le⟩

theorem mem_add_index {item x : ForkItem} (hx : x ∈ db.index) : x ∈ (db.add item).index := by
  rw [add_index]
  unfold ForkDatabase.insert
  split
  · exact hx
  · exact List.mem_append_left _ hx

theorem mem_add_index_iff {item x : ForkItem} (hx : x ∈ (db.add item).index) : x ∈ db.index ∨ x = item := by
  rw [add_index] at hx
  unfold ForkDatabase.insert at hx
  split at hx
  · exact .inl hx
  · rcases List.mem_append.1 hx with hx | hx
    · exact .inl hx
    · exact .inr (List.mem_singleton.1 hx)

theorem add_known (item : ForkItem) : ∃ q ∈ (db.add item).index, q.blockId = item.blockId := by
  rw [add_index]
  unfold ForkDatabase.insert
  split
  · rename_i hknown
    obtain ⟨x, hx, hid⟩ := List.any_eq_true.1 hknown
    exact ⟨x, hx, of_decide_eq_true hid⟩
  · exact ⟨item, List.mem_append_right _ (List.mem_singleton_self _), rfl⟩

theorem linkItem_unlinkable {item : ForkItem} (h : db.linkItem item = .error .unlinkable) :
    db.head.isSome ∧ db.find item.previousId = none := by
  unfold linkItem at h
  dsimp only at h
  repeat' split at h
  all_goals first
    | exact ⟨(‹db.head.isSome = true ∧ item.previousId ≠ BlockId.zero›).1, ‹db.find item.previousId = none›⟩
    | cases h

theorem pushNext_drains : ∀ (fuel : Nat) (newItem : ForkItem) (pending : List BlockId) (db : ForkDatabase),
    db.unlinkedIndex.length < fuel → (∃ p ∈ db.index, p.blockId = newItem.blockId) →
    (∀ c ∈ db.unlinkedIndex, ∀ p ∈ db.index, p.blockId = c.previousId →
      c.previousId = newItem.blockId ∨ c.previousId ∈ pending) →
    ∃ db', (pushNext fuel newItem).run db = .ok () db' ∧ Grows db db' ∧
      ∀ c ∈ db'.unlinkedIndex, ∀ p ∈ db'.index, p.blockId = c.previousId → c.previousId ∈ pending
  | 0, _, _, _, hlen, _, _ => absurd hlen (Nat.not_lt_zero _)
  | fuel + 1, newItem, pending, db, hlen, hnew, hwait => by
    cases hfind : db.unlinkedIndex.find? (fun x => x.previousId = newItem.blockId) with
    | none =>
      refine ⟨db, run_pushNext_none hfind, Grows.refl db, fun c hc p hp hpc => ?_⟩
      refine (hwait c hc p hp hpc).resolve_left fun hnc => ?_
      exact List.find?_eq_none.1 hfind c hc (decide_eq_true hnc)
    | some tmp =>
      obtain ⟨htmp, htmpid⟩ := find?_previousId_eq_some hfind
      let db₁ : ForkDatabase := { db with unlinkedIndex := db.unlinkedIndex.erase tmp }
      have hlen₁ : db₁.unlinkedIndex.length < fuel := length_erase_lt htmp hlen
      have hgrow₁ : Grows db db₁ := Grows.erase tmp
      have hwait₁ : ∀ c ∈ db₁.unlinkedIndex, ∀ p ∈ db₁.index, p.blockId = c.previousId →
          c.previousId = newItem.blockId ∨ c.previousId ∈ pending :=
        fun c hc => hwait c (List.mem_of_mem_erase hc)
      obtain ⟨db₃, hbody, hgrow₃, hwait₃⟩ : ∃ db₃, (pushNextBody fuel tmp).run db₁ = .ok () db₃ ∧ Grows db₁ db₃ ∧
          ∀ c ∈ db₃.unlinkedIndex, ∀ p ∈ db₃.index, p.blockId = c.previousId →
            c.previousId = newItem.blockId ∨ c.previousId ∈ pending := by
        cases hlink : db₁.linkItem tmp with
        | error e =>
          cases e with
          | unlinkable =>
            obtain ⟨-, hnone⟩ := linkItem_unlinkable hlink
            obtain ⟨p, hp, hpid⟩ := hnew
            exact absurd (decide_eq_true (hpid.trans htmpid.symm))
              (List.find?_eq_none.1 (show db.index.find? _ = none from hnone) p hp)
          | assert msg =>
            exact ⟨db₁, (run_tryCatch_error (run_bind_error (run_linkBlock_error hlink))).trans rfl,
              Grows.refl db₁, hwait₁⟩
        | ok item' =>
          have hgrow₂ : Grows db₁ (db₁.add item') :=
            ⟨fun _ hx => mem_add_index hx, by rw [add_unlinkedIndex]⟩
          -- below `tmp`, a cached block waits on `tmp`, on `newItem` or on `pending`
          obtain ⟨db₃, hrun, hgrow, hwait'⟩ := pushNext_drains fuel item' (newItem.blockId :: pending) (db₁.add item')
            (by rw [add_unlinkedIndex]; exact hlen₁) (add_known item')
            (fun c hc p hp hpc => by
              rw [add_unlinkedIndex] at hc
              rcases mem_add_index_iff hp with hp | rfl
              · exact .inr (List.mem_cons.2 (hwait₁ c hc p hp hpc))
              · exact .inl hpc.symm)
          exact ⟨db₃, run_tryCatch_ok ((run_bind_ok (run_linkBlock_ok hlink)).trans hrun), hgrow₂.trans hgrow,
            fun c hc p hp hpc => List.mem_cons.1 (hwait' c hc p hp hpc)⟩
      obtain ⟨db₄, hrun₄, hgrow₄, hwait₄⟩ := pushNext_drains fuel newItem pending db₃
        (lt_of_le_of_lt hgrow₃.cache hlen₁)
        (let ⟨p, hp, hpid⟩ := hnew; ⟨p, hgrow₃.index p (hgrow₁.index p hp), hpid⟩) hwait₃
      exact ⟨db₄, ((run_pushNext_some hfind).trans (run_bind_ok hbody)).trans hrun₄,
        hgrow₁.trans (hgrow₃.trans hgrow₄), hwait₄⟩

theorem waiting_pushBlock (hwait : db.Waiting) (fullBlock : FullBlock) :
    (Result.state ((pushBlock fullBlock).run db)).Waiting := by
  unfold pushBlock
  rw [run_bind_ok (run_get db)]
  cases hlink : db.linkItem { fullBlock } with
  | error e =>
    have hbody : (pushBlockAux (db.unlinkedIndex.length + 1) { fullBlock }).run db = .error e db :=
      run_bind_error (run_linkBlock_error hlink)
    rw [run_bind_tryCatch_error hbody]
    cases e with
    | assert msg => exact hwait
    | unlinkable =>
      obtain ⟨-, hnone⟩ := linkItem_unlinkable hlink
      show (db.insertUnlinked { fullBlock }).Waiting
      intro c hc p hp hpc
      rw [insertUnlinked_index] at hp
      unfold insertUnlinked at hc
      split at hc
      · exact hwait c hc p hp hpc
      · rcases List.mem_append.1 hc with hc | hc
        · exact hwait c hc p hp hpc
        · rw [List.mem_singleton.1 hc] at hpc
          exact List.find?_eq_none.1 (show db.index.find? _ = none from hnone) p hp (decide_eq_true hpc)
  | ok item' =>
    obtain ⟨db', hrun, -, hwait'⟩ := pushNext_drains (db.unlinkedIndex.length + 1) item' [] (db.add item')
      (by rw [add_unlinkedIndex]; omega) (add_known item')
      (fun c hc p hp hpc => by
        rw [add_unlinkedIndex] at hc
        rcases mem_add_index_iff hp with hp | rfl
        · exact absurd hpc (hwait c hc p hp)
        · exact .inl hpc.symm)
    have hbody : (pushBlockAux (db.unlinkedIndex.length + 1) { fullBlock }).run db = .ok () db' :=
      (run_bind_ok (run_linkBlock_ok hlink)).trans hrun
    rw [run_bind_ok (run_tryCatch_ok hbody)]
    exact fun c hc p hp hpc => List.not_mem_nil (hwait' c hc p hp hpc)

/-! ## The links over every call -/

namespace WellLinked

theorem of_sublist {db' : ForkDatabase} (h : db.WellLinked) (hi : db'.index.Sublist db.index)
    (hu : db'.unlinkedIndex.Sublist db.unlinkedIndex) : db'.WellLinked :=
  ⟨h.nodup.sublist (hi.map _), fun x hx => h.prev_eq x (hi.subset hx), fun x hx => h.unlinked_prev x (hu.subset hx)⟩

theorem of_eq {db' : ForkDatabase} (h : db.WellLinked) (hi : db'.index = db.index)
    (hu : db'.unlinkedIndex = db.unlinkedIndex) : db'.WellLinked :=
  h.of_sublist (hi ▸ List.Sublist.refl _) (hu ▸ List.Sublist.refl _)

theorem insert (h : db.WellLinked) {item : ForkItem} (hitem : ∀ pid, item.prev = some pid → pid = item.previousId) :
    (db.insert item).WellLinked := by
  unfold ForkDatabase.insert
  split
  · exact h
  · rename_i hfresh
    refine ⟨KeyedList.nodup_map_append_of_fresh ForkItem.blockId h.nodup fun c hc hid => hfresh ?_, ?_,
      h.unlinked_prev⟩
    · exact List.any_eq_true.2 ⟨c, hc, decide_eq_true hid⟩
    · intro x hx pid hpid
      rcases List.mem_append.1 hx with hx | hx
      · exact h.prev_eq x hx pid hpid
      · rw [List.mem_singleton.1 hx] at hpid ⊢
        exact hitem pid hpid

theorem add_of_linkItem (h : db.WellLinked) {item item' : ForkItem} (hfresh : item.prev = none)
    (hlink : db.linkItem item = .ok item') : (db.add item').WellLinked := by
  refine (h.insert fun pid hpid => ?_).of_eq (add_index item') (by rw [add_unlinkedIndex, insert_unlinkedIndex])
  rcases linkItem_eq_ok hlink with rfl | ⟨p, hp, rfl⟩
  · rw [hfresh] at hpid
    cases hpid
  · cases hpid
    exact ((h.find_eq_some_iff).1 hp).2

end WellLinked

theorem keeps_wellLinked_pushBlock (fullBlock : FullBlock) : Keeps WellLinked (pushBlock fullBlock) :=
  keeps_pushBlock_of (Q := fun item => item.prev = none) (fun _ h => h.unlinked_prev)
    (fun _ _ _ h hfresh hlink => h.add_of_linkItem hfresh hlink)
    (fun _ _ h => h.of_sublist (List.Sublist.refl _) List.erase_sublist)
    (fun db fullBlock h => by
      unfold insertUnlinked
      split
      · exact h
      · refine ⟨h.nodup, h.prev_eq, fun x hx => ?_⟩
        rcases List.mem_append.1 hx with hx | hx
        · exact h.unlinked_prev x hx
        · rw [List.mem_singleton.1 hx])
    (fun _ => rfl) fullBlock

theorem keeps_wellLinked_popBlock : Keeps WellLinked popBlock := by
  unfold popBlock
  refine keeps_get_bind fun db hdb => ?_
  repeat' split
  all_goals first
    | exact hdb
    | exact hdb.of_eq rfl rfl

/-! ## The main branch -/

@[simp] theorem walkDown_none (n fuel : Nat) : db.walkDown n fuel none = none := by
  cases fuel <;> rfl

theorem walkDown_eq (h : db.WellLinked) {n : Nat} : ∀ {fuel : Nat} {x : ForkItem}, x ∈ db.index → n ≤ x.blockNum →
    x.blockNum - n ≤ fuel → db.walkDown n fuel (some x) = anc db.prevItem (x.blockNum - n) x
  | 0, x, _, _, hf => by
    have hx : x.blockNum = n := by omega
    rw [walkDown, if_neg (by omega), hx, Nat.sub_self, anc_zero]
  | fuel + 1, x, hx, hn, hf => by
    by_cases hgt : x.blockNum > n
    · rw [walkDown, if_pos hgt, show x.blockNum - n = (x.blockNum - n - 1) + 1 by omega, anc_succ]
      cases hp : db.prevItem x with
      | none => exact walkDown_none n fuel
      | some y =>
        obtain ⟨hy, -, hynum⟩ := h.prevItem_spec hx hp
        rw [Option.bind_some, walkDown_eq h hy (by omega) (by omega), show y.blockNum - n = x.blockNum - n - 1 by omega]
    · have hx' : x.blockNum = n := by omega
      rw [walkDown, if_neg hgt, hx', Nat.sub_self, anc_zero]

theorem walkMainBranchToNum_eq (h : db.WellLinked) {hd : ForkItem} (hh : db.head = some hd) (hmem : hd ∈ db.index)
    (n : Nat) : db.walkMainBranchToNum n = if n ≤ hd.blockNum then anc db.prevItem (hd.blockNum - n) hd else none := by
  unfold walkMainBranchToNum
  rw [hh]
  dsimp only
  by_cases hn : n ≤ hd.blockNum
  · rw [if_neg (Nat.not_lt.2 hn), if_pos hn, walkDown_eq h hmem hn (Nat.sub_le _ _)]
  · rw [if_pos (Nat.lt_of_not_le hn), if_neg hn]

theorem walkMainBranchToNum_mem (h : db.WellLinked) {hd : ForkItem} (hh : db.head = some hd) (hmem : hd ∈ db.index)
    {n : Nat} {y : ForkItem} (hy : db.walkMainBranchToNum n = some y) :
    y ∈ db.index ∧ y.blockNum = n ∧ n ≤ hd.blockNum := by
  rw [walkMainBranchToNum_eq h hh hmem n] at hy
  split at hy
  · rename_i hn
    obtain ⟨hymem, hynum⟩ := h.anc_spec hmem hy
    exact ⟨hymem, by omega, hn⟩
  · cases hy

theorem eq_of_fetchBlockByNumber {n : Nat} {x y : ForkItem} (hy : y ∈ db.index) (hyn : y.blockNum = n)
    (hx : db.fetchBlockByNumber n = [x]) : y = x := by
  have hmem : y ∈ db.fetchBlockByNumber n := List.mem_filter.2 ⟨hy, decide_eq_true hyn⟩
  rw [hx] at hmem
  exact List.mem_singleton.1 hmem

@[simp] theorem collectDown_none (first fuel : Nat) : db.collectDown first fuel none = [] := by
  cases fuel <;> rfl

theorem collectDown_eq (h : db.WellLinked) {first : Nat} : ∀ {fuel : Nat} {x z : ForkItem}, x ∈ db.index →
    first ≤ x.blockNum → x.blockNum + 1 - first ≤ fuel → anc db.prevItem (x.blockNum - first) x = some z →
    db.collectDown first fuel (some x) = path db.prevItem (x.blockNum + 1 - first) x
  | 0, _, _, _, hfirst, hf, _ => absurd hf (by omega)
  | fuel + 1, x, z, hx, hfirst, hf, hz => by
    rw [collectDown, if_pos hfirst]
    by_cases hgt : first < x.blockNum
    · -- one step down, to the previous block
      rw [show x.blockNum - first = (x.blockNum - first - 1) + 1 by omega, anc_succ] at hz
      cases hp : db.prevItem x with
      | none =>
        rw [hp] at hz
        cases hz
      | some y =>
        rw [hp, Option.bind_some] at hz
        obtain ⟨hy, -, hynum⟩ := h.prevItem_spec hx hp
        rw [collectDown_eq h hy (by omega) (by omega) (by rw [show y.blockNum - first = x.blockNum - first - 1 by omega]; exact hz),
          show x.blockNum + 1 - first = (y.blockNum + 1 - first) + 1 by omega, path_succ_of_eq hp]
    · -- the block of the number `first`: the loop stops below it
      have hxf : x.blockNum = first := by omega
      have hstop : db.collectDown first fuel (db.prevItem x) = [] := by
        cases hp : db.prevItem x with
        | none => exact collectDown_none first fuel
        | some y =>
          have hynum := (h.prevItem_spec hx hp).2.2
          cases fuel with
          | zero => rfl
          | succ fuel => rw [collectDown, if_neg (by omega)]
      rw [hstop, hxf, Nat.add_sub_cancel_left, path_succ_of_anc (anc_zero db.prevItem x)]
      rfl

/-! ## Pruning -/

theorem eraseUpTo_eq_filter (threshold : Nat) : ∀ (fuel : Nat) (items : List ForkItem), items.length ≤ fuel →
    eraseUpTo threshold fuel items = items.filter fun x => threshold < x.blockNum
  | 0, items, h => by
    rw [List.length_eq_zero_iff.1 (Nat.le_zero.1 h)]
    rfl
  | fuel + 1, items, h => by
    rw [eraseUpTo]
    cases hmin : items.argmin ForkItem.blockNum with
    | none =>
      rw [List.argmin_eq_none.1 hmin]
      rfl
    | some x =>
      have hx : x ∈ items := List.argmin_mem hmin
      dsimp only
      by_cases hle : x.blockNum ≤ threshold
      · rw [if_pos hle, eraseUpTo_eq_filter threshold fuel _ (by rw [List.length_erase_of_mem hx]; omega),
          ← List.erase_filter]
        exact List.erase_of_not_mem fun hmem => by
          have := of_decide_eq_true (List.mem_filter.1 hmem).2
          omega
      · rw [if_neg hle]
        refine (List.filter_eq_self.2 fun y hy => decide_eq_true ?_).symm
        have := List.le_of_mem_argmin hy hmin
        omega

theorem eraseUpTo_sublist (threshold : Nat) (items : List ForkItem) :
    (eraseUpTo threshold items.length items).Sublist items := by
  rw [eraseUpTo_eq_filter threshold items.length items le_rfl]
  exact List.filter_sublist

theorem walkDown_le {n : Nat} : ∀ {fuel : Nat} {x : Option ForkItem} {y : ForkItem}, db.walkDown n fuel x = some y →
    y.blockNum ≤ n
  | _, none, _, h => by
    rw [walkDown_none] at h
    cases h
  | 0, some x, y, h => by
    rw [walkDown] at h
    split at h
    · cases h
    · cases h
      omega
  | fuel + 1, some x, y, h => by
    rw [walkDown] at h
    split at h
    · exact walkDown_le h
    · cases h
      omega

theorem fetchBlockRange_eq (h : db.WellLinked) {hd : ForkItem} (hh : db.head = some hd) (hmem : hd ∈ db.index)
    {first count : Nat} (hfirst : first ≤ hd.blockNum) (hcount : 0 < count) (hfit : first + count ≤ 2 ^ 32)
    {z : ForkItem} (hreach : anc db.prevItem (hd.blockNum - first) hd = some z) :
    ∃ y, anc db.prevItem (hd.blockNum - min (first + count - 1) hd.blockNum) hd = some y ∧
      y.blockNum = min (first + count - 1) hd.blockNum ∧
      anc db.prevItem (y.blockNum - first) y = some z ∧
      db.fetchBlockRangeOnMainBranchByNumber first count = (path db.prevItem (y.blockNum + 1 - first) y).reverse := by
  have hlast : (first + count + (2 ^ 32 - 1)) % 2 ^ 32 = first + count - 1 := by
    rw [show first + count + (2 ^ 32 - 1) = first + count - 1 + 2 ^ 32 by omega, Nat.add_mod_right,
      Nat.mod_eq_of_lt (by omega)]
  obtain ⟨y, hy, hyz⟩ := anc_add_eq_some (show anc db.prevItem ((hd.blockNum - min (first + count - 1) hd.blockNum) +
      (min (first + count - 1) hd.blockNum - first)) hd = some z by
    rw [show hd.blockNum - min (first + count - 1) hd.blockNum + (min (first + count - 1) hd.blockNum - first) =
      hd.blockNum - first by omega]
    exact hreach)
  obtain ⟨hymem, hynum⟩ := h.anc_spec hmem hy
  have hyn : y.blockNum = min (first + count - 1) hd.blockNum := by omega
  have hwalk : db.walkMainBranchToNum (min (first + count - 1) hd.blockNum) = some y := by
    rw [walkMainBranchToNum_eq h hh hmem, if_pos (min_le_right _ _)]
    exact hy
  have hyz' : anc db.prevItem (y.blockNum - first) y = some z := by rw [hyn]; exact hyz
  have hcollect : db.collectDown first (y.blockNum + 1) (some y) = path db.prevItem (y.blockNum + 1 - first) y :=
    collectDown_eq h hymem (by omega) (by omega) hyz'
  refine ⟨y, hy, hyn, hyz', ?_⟩
  unfold fetchBlockRangeOnMainBranchByNumber
  rw [hh]
  dsimp only
  rw [if_neg (Nat.not_lt.2 hfirst), hlast]
  split
  · rename_i hnil
    have hin : y ∈ db.fetchBlockByNumber (min (first + count - 1) hd.blockNum) := List.mem_filter.2 ⟨hymem, decide_eq_true hyn⟩
    rw [hnil] at hin
    cases hin
  · rename_i x hx
    rw [← eq_of_fetchBlockByNumber hymem hyn hx, ← hyn, hcollect]
  · rw [hwalk, ← hyn, hcollect]

end ForkDatabase

open ForkDatabase

/-- The calls the chain makes on its fork database (`sync_block_writer`, and its opening). -/
inductive ForkOp where
  | reset
  | startBlock (fullBlock : FullBlock)
  | pushBlock (fullBlock : FullBlock)
  | popBlock
  | remove (id : BlockId)
  | setHead (id : BlockId)
  | setMaxSize (s : Nat)

namespace ForkOp

/-- The fork database a call leaves, whether it returns or throws. -/
def apply (db : ForkDatabase) : ForkOp → ForkDatabase
  | reset => db.reset
  | startBlock fullBlock => db.startBlock fullBlock
  | pushBlock fullBlock => Result.state ((Chain.pushBlock fullBlock).run db)
  | popBlock => Result.state (Chain.popBlock.run db)
  | remove id => db.remove id
  | setHead id => db.setHead id
  | setMaxSize s => db.setMaxSize s

theorem apply_wellLinked {db : ForkDatabase} (h : db.WellLinked) : ∀ op : ForkOp, (apply db op).WellLinked
  | reset => ⟨List.nodup_nil, fun _ hx => absurd hx List.not_mem_nil, h.unlinked_prev⟩
  | startBlock fullBlock => (h.insert fun _ hpid => by cases hpid).of_eq rfl rfl
  | pushBlock fullBlock => keeps_wellLinked_pushBlock fullBlock db h
  | popBlock => keeps_wellLinked_popBlock db h
  | remove id => h.of_sublist List.filter_sublist (List.Sublist.refl _)
  | setHead id => h.of_eq rfl rfl
  | setMaxSize s => by
    show (db.setMaxSize s).WellLinked
    unfold ForkDatabase.setMaxSize
    split
    · exact h.of_eq rfl rfl
    · exact h.of_sublist (eraseUpTo_sublist _ _) (eraseUpTo_sublist _ _)

end ForkOp

/-- The fork database a sequence of calls leaves. -/
def runForkOps (ops : List ForkOp) (db : ForkDatabase) : ForkDatabase := ops.foldl ForkOp.apply db

theorem runForkOps_wellLinked : ∀ (ops : List ForkOp) {db : ForkDatabase}, db.WellLinked → (runForkOps ops db).WellLinked
  | [], _, h => h
  | op :: ops, _, h => runForkOps_wellLinked ops (ForkOp.apply_wellLinked h op)

theorem reachable_forkSample : forkSample.Reachable := .push _ (.push _ (.start _ _))

/-- `push_block` returns the highest block: in every fork database `start_block` and
`push_block` build, a `push_block` that returns gives the head it leaves, a linked block that no
linked block is higher than. -/
theorem push_block_returns_highest {db : ForkDatabase} (hdb : db.Reachable) (fullBlock : FullBlock)
    {r : Option ForkItem} {db' : ForkDatabase} (hrun : (pushBlock fullBlock).run db = .ok r db') :
    ∃ h, r = some h ∧ h ∈ db'.index ∧ ∀ x ∈ db'.index, x.blockNum ≤ h.blockNum := by
  have hreach : db'.Reachable := by
    have hpush := Reachable.push fullBlock hdb
    rwa [hrun] at hpush
  obtain ⟨h, hh, hmem, hmax⟩ := hreach.headed
  exact ⟨h, (pushBlock_returns_head hrun).trans hh, hmem, hmax⟩

theorem push_block_returns_highest_sample :
    ∃ r db', (pushBlock ⟨⟨2, 20⟩, ⟨1, 10⟩, rfl⟩).run (startBlock ⟨[], [], none, 1024⟩ ⟨⟨1, 10⟩, BlockId.zero, rfl⟩) =
        .ok r db' ∧ ∃ h, r = some h ∧ h ∈ db'.index ∧ ∀ x ∈ db'.index, x.blockNum ≤ h.blockNum :=
  ⟨_, _, rfl, push_block_returns_highest (.start ⟨⟨1, 10⟩, BlockId.zero, rfl⟩ 1024) ⟨⟨2, 20⟩, ⟨1, 10⟩, rfl⟩ rfl⟩

/-- The cache only holds blocks that wait for their previous block: in every fork database
`start_block` and `push_block` build, no cached block's previous block is linked. -/
theorem cache_waits_for_parent {db : ForkDatabase} (hdb : db.Reachable) :
    ∀ c ∈ db.unlinkedIndex, ∀ p ∈ db.index, p.blockId ≠ c.previousId := by
  induction hdb with
  | start fullBlock maxSize =>
    intro c hc
    simp [startBlock, ForkDatabase.insert] at hc
  | push fullBlock _ ih => exact waiting_pushBlock ih fullBlock

def forkCacheSample : ForkDatabase := Result.state ((pushBlock ⟨⟨4, 40⟩, ⟨3, 30⟩, rfl⟩).run forkSample)

theorem cache_waits_for_parent_sample :
    (⟨⟨⟨4, 40⟩, ⟨3, 30⟩, rfl⟩, none, false⟩ : ForkItem) ∈ forkCacheSample.unlinkedIndex ∧
      (⟨⟨⟨2, 20⟩, ⟨1, 10⟩, rfl⟩, some ⟨1, 10⟩, false⟩ : ForkItem) ∈ forkCacheSample.index ∧
      (⟨⟨⟨2, 20⟩, ⟨1, 10⟩, rfl⟩, some ⟨1, 10⟩, false⟩ : ForkItem).blockId ≠
        (⟨⟨⟨4, 40⟩, ⟨3, 30⟩, rfl⟩, none, false⟩ : ForkItem).previousId :=
  ⟨by decide, by decide,
    cache_waits_for_parent (.push ⟨⟨4, 40⟩, ⟨3, 30⟩, rfl⟩ reachable_forkSample) _ (by decide) _ (by decide)⟩

/-- `walk_main_branch_to_num` finds the block of the head's branch at that number: when the links
are sound and the head is linked, it returns the head's ancestor as many steps down as the numbers
differ, a linked block of exactly that number, or null when the number is above the head or the
branch ends above it. -/
theorem walk_main_branch_finds_ancestor {db : ForkDatabase} (h : db.WellLinked) {hd : ForkItem}
    (hh : db.head = some hd) (hmem : hd ∈ db.index) (n : Nat) :
    db.walkMainBranchToNum n = (if n ≤ hd.blockNum then anc db.prevItem (hd.blockNum - n) hd else none) ∧
      ∀ y, db.walkMainBranchToNum n = some y → y ∈ db.index ∧ y.blockNum = n :=
  ⟨walkMainBranchToNum_eq h hh hmem n, fun _ hy =>
    let ⟨hymem, hyn, _⟩ := walkMainBranchToNum_mem h hh hmem hy
    ⟨hymem, hyn⟩⟩

theorem walk_main_branch_finds_ancestor_sample :
    forkSample.walkMainBranchToNum 1 = (if 1 ≤ 2 then anc forkSample.prevItem (2 - 1) ⟨⟨⟨2, 20⟩, ⟨1, 10⟩, rfl⟩, some ⟨1, 10⟩, false⟩ else none) ∧
      ∀ y, forkSample.walkMainBranchToNum 1 = some y → y ∈ forkSample.index ∧ y.blockNum = 1 :=
  walk_main_branch_finds_ancestor (Linked.wellLinked (Reachable.linked reachable_forkSample)) rfl (by decide) 1

/-- `fetch_block_on_main_branch_by_number` takes the only block of a number without walking, and
agrees with the walk down the head's branch whenever that finds a block. -/
theorem main_branch_fetch_agrees_with_walk {db : ForkDatabase} (h : db.WellLinked) {hd : ForkItem}
    (hh : db.head = some hd) (hmem : hd ∈ db.index) {n : Nat} {y : ForkItem}
    (hwalk : db.walkMainBranchToNum n = some y) : db.fetchBlockOnMainBranchByNumber n = some y := by
  obtain ⟨hy, hyn, hn⟩ := walkMainBranchToNum_mem h hh hmem hwalk
  unfold fetchBlockOnMainBranchByNumber
  rw [hh]
  dsimp only
  rw [if_neg (Nat.not_lt.2 hn)]
  split
  · -- no block of that number: but `y` is one
    rename_i hnil
    have hin : y ∈ db.fetchBlockByNumber n := List.mem_filter.2 ⟨hy, decide_eq_true hyn⟩
    rw [hnil] at hin
    cases hin
  · rename_i x hx
    rw [eq_of_fetchBlockByNumber hy hyn hx]
  · exact hwalk

theorem main_branch_fetch_agrees_with_walk_sample :
    forkSample.fetchBlockOnMainBranchByNumber 1 = some ⟨⟨⟨1, 10⟩, BlockId.zero, rfl⟩, none, false⟩ :=
  main_branch_fetch_agrees_with_walk (Linked.wellLinked (Reachable.linked reachable_forkSample)) rfl (by decide)
    (by decide)

/-- `fetch_block_range_on_main_branch_by_number` returns a segment of the head's branch in
increasing order: when the branch reaches down to `first`, the blocks numbered `first` to
`min (first + count - 1) head`, each one the `prev` of the next, all ancestors of the head. -/
theorem main_branch_range_is_segment {db : ForkDatabase} (h : db.WellLinked) {hd : ForkItem}
    (hh : db.head = some hd) (hmem : hd ∈ db.index) {first count : Nat} (hfirst : first ≤ hd.blockNum)
    (hcount : 0 < count) (hfit : first + count ≤ 2 ^ 32) (hreach : ∃ z, anc db.prevItem (hd.blockNum - first) hd = some z) :
    (db.fetchBlockRangeOnMainBranchByNumber first count).map ForkItem.blockNum =
        List.range' first (min (first + count - 1) hd.blockNum + 1 - first) ∧
      (∀ x ∈ db.fetchBlockRangeOnMainBranchByNumber first count, ∃ k, anc db.prevItem k hd = some x) ∧
      (db.fetchBlockRangeOnMainBranchByNumber first count).IsChain fun a b => db.prevItem b = some a := by
  obtain ⟨z, hz⟩ := hreach
  obtain ⟨y, hy, hyn, hyz, hrange⟩ := fetchBlockRange_eq h hh hmem hfirst hcount hfit hz
  have hymem := (h.anc_spec hmem hy).1
  have hk : y.blockNum + 1 - first = (y.blockNum - first) + 1 := by omega
  rw [hrange, hk]
  refine ⟨?_, fun x hx => ?_, ?_⟩
  · -- the path descends one number at a time from `y`, down to `first`
    have hznum := (h.anc_spec hymem hyz).2
    have hnum : (path db.prevItem (y.blockNum - first + 1) y).map ForkItem.blockNum =
        (List.range' first (y.blockNum - first + 1)).reverse := by
      rw [path_succ_of_anc hyz, List.map_append, h.path_blockNum hymem hyz, List.reverse_range', List.range_succ,
        List.map_append, show first + (y.blockNum - first + 1) - 1 = y.blockNum by omega]
      simp only [List.map_cons, List.map_nil]
      rw [show z.blockNum = y.blockNum - (y.blockNum - first) by omega]
    rw [List.map_reverse, hnum, List.reverse_reverse, show y.blockNum - first + 1 =
      min (first + count - 1) hd.blockNum + 1 - first by omega]
  · obtain ⟨j, -, hj⟩ := exists_anc_of_mem_path (List.mem_reverse.1 hx)
    exact ⟨_, by rw [anc_add, hy, Option.bind_some]; exact hj⟩
  · exact List.isChain_reverse.2 (isChain_path hyz)

theorem main_branch_range_is_segment_sample :
    (forkSample.fetchBlockRangeOnMainBranchByNumber 1 2).map ForkItem.blockNum = List.range' 1 (min (1 + 2 - 1) 2 + 1 - 1) ∧
      (∀ x ∈ forkSample.fetchBlockRangeOnMainBranchByNumber 1 2, ∃ k, anc forkSample.prevItem k ⟨⟨⟨2, 20⟩, ⟨1, 10⟩, rfl⟩, some ⟨1, 10⟩, false⟩ = some x) ∧
      (forkSample.fetchBlockRangeOnMainBranchByNumber 1 2).IsChain fun a b => forkSample.prevItem b = some a :=
  main_branch_range_is_segment (Linked.wellLinked (Reachable.linked reachable_forkSample)) rfl (by decide)
    (by decide) (by decide) (by decide) ⟨_, rfl⟩

/-- `set_max_size( s )` keeps exactly the blocks above `head - s`, in both indices: each of its
loops walks an index from its lowest block and stops at the first block above the threshold. The
head stays, and for `s ≥ 1` it stays linked. -/
theorem set_max_size_erases_up_to (db : ForkDatabase) (s : Nat) {hd : ForkItem} (hh : db.head = some hd) :
    (db.setMaxSize s).index = db.index.filter (fun x => hd.blockNum - s < x.blockNum) ∧
      (db.setMaxSize s).unlinkedIndex = db.unlinkedIndex.filter (fun x => hd.blockNum - s < x.blockNum) ∧
      (db.setMaxSize s).head = some hd ∧ (0 < s → hd ∈ db.index → hd ∈ (db.setMaxSize s).index) := by
  have hindex : (db.setMaxSize s).index = db.index.filter (fun x => hd.blockNum - s < x.blockNum) := by
    unfold ForkDatabase.setMaxSize
    rw [hh]
    exact eraseUpTo_eq_filter _ _ _ le_rfl
  refine ⟨hindex, ?_, ?_, fun hs hmem => ?_⟩
  · unfold ForkDatabase.setMaxSize
    rw [hh]
    exact eraseUpTo_eq_filter _ _ _ le_rfl
  · unfold ForkDatabase.setMaxSize
    rw [hh]
  · -- the head is block one or later
    have hnum := hd.blockNum_eq
    rw [hindex]
    exact List.mem_filter.2 ⟨hmem, decide_eq_true (by omega)⟩

theorem set_max_size_erases_up_to_sample :
    (forkSample.setMaxSize 1).index = forkSample.index.filter (fun x => 2 - 1 < x.blockNum) ∧
      (forkSample.setMaxSize 1).unlinkedIndex = forkSample.unlinkedIndex.filter (fun x => 2 - 1 < x.blockNum) ∧
      (forkSample.setMaxSize 1).head = some ⟨⟨⟨2, 20⟩, ⟨1, 10⟩, rfl⟩, some ⟨1, 10⟩, false⟩ ∧
      (0 < 1 → ⟨⟨⟨2, 20⟩, ⟨1, 10⟩, rfl⟩, some ⟨1, 10⟩, false⟩ ∈ forkSample.index → ⟨⟨⟨2, 20⟩, ⟨1, 10⟩, rfl⟩, some ⟨1, 10⟩, false⟩ ∈ (forkSample.setMaxSize 1).index) :=
  set_max_size_erases_up_to forkSample 1 rfl

/-- A range of no blocks is empty, except from block `0`: there `first_block_num + count - 1` wraps
to the largest `uint32_t`, and the call returns what a range of every block up to the head does. -/
theorem range_of_no_blocks (db : ForkDatabase) :
    (∀ first, 0 < first → first < 2 ^ 32 → db.fetchBlockRangeOnMainBranchByNumber first 0 = []) ∧
      ∀ hd, db.head = some hd → hd.blockNum < 2 ^ 32 →
        db.fetchBlockRangeOnMainBranchByNumber 0 0 = db.fetchBlockRangeOnMainBranchByNumber 0 (hd.blockNum + 1) := by
  refine ⟨fun first hfirst hfit => ?_, fun hd hh hnum => ?_⟩
  · unfold fetchBlockRangeOnMainBranchByNumber
    split
    · rfl
    · rename_i hd _
      dsimp only
      split
      · rfl
      · rename_i hle
        rw [show (first + 0 + (2 ^ 32 - 1)) % 2 ^ 32 = first - 1 by omega, min_eq_left (by omega)]
        split
        · rfl
        · rename_i x hx
          have hxnum : x.blockNum = first - 1 :=
            of_decide_eq_true (List.mem_filter.1 (show x ∈ db.fetchBlockByNumber (first - 1) by rw [hx]; simp)).2
          rw [collectDown, if_neg (by omega)]
          rfl
        · unfold walkMainBranchToNum
          split
          · simp
          · split
            · simp
            · cases hwalk : db.walkDown (first - 1) _ _ with
              | none => simp
              | some y =>
                have := walkDown_le hwalk
                rw [collectDown, if_neg (by omega)]
                rfl
  · unfold fetchBlockRangeOnMainBranchByNumber
    rw [hh]
    dsimp only
    rw [show (0 + 0 + (2 ^ 32 - 1)) % 2 ^ 32 = 2 ^ 32 - 1 by norm_num,
      show (0 + (hd.blockNum + 1) + (2 ^ 32 - 1)) % 2 ^ 32 = hd.blockNum by omega, min_eq_right (by omega), min_self]

theorem range_of_no_blocks_sample :
    forkSample.fetchBlockRangeOnMainBranchByNumber 2 0 = [] ∧
      forkSample.fetchBlockRangeOnMainBranchByNumber 0 0 = forkSample.fetchBlockRangeOnMainBranchByNumber 0 (2 + 1) :=
  ⟨(range_of_no_blocks forkSample).1 2 (by decide) (by decide),
    (range_of_no_blocks forkSample).2 ⟨⟨⟨2, 20⟩, ⟨1, 10⟩, rfl⟩, some ⟨1, 10⟩, false⟩ rfl (by decide)⟩

end Chain
end HiveChain
