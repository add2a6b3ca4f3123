import HiveChain.Lib.ParentMap
import HiveChain.Lib.KeyedList
import HiveChain.Chain.ForkDatabase

/-!
# HiveChain.Chain.ForkDatabaseSpec

The links of the fork database, and the branches `fetch_branch_from` returns.

* `ForkDatabase.Linked` — one item per id, and every `prev` names the item of the block's
  previous id. `start_block` builds it and every `push_block` keeps it, whether it returns or
  throws (`keeps_linked_pushBlock`), so every database those build is linked.
* In a linked database the chain of `prev` from an item is the `ParentMap` chain of `prevItem`,
  one block number lower at each step (`anc_spec`).
* `fetch_branch_from_lca` — from two linked blocks whose chains meet, `fetch_branch_from`
  returns each block's chain down to, and without, the lowest common ancestor.
-/

namespace HiveChain
namespace Chain

open EState ParentMap

theorem ForkItem.blockNum_eq (x : ForkItem) : x.blockNum = x.previousId.num + 1 := x.fullBlock.num_succ

namespace ForkDatabase

/-- The links of a fork database: the index holds one item per id, every `prev` names the item
of the block's previous id, which is in the index, and the cached blocks are not linked. -/
structure Linked (db : ForkDatabase) : Prop where
  nodup : (db.index.map ForkItem.blockId).Nodup
  prev_eq : ∀ x ∈ db.index, ∀ pid, x.prev = some pid → pid = x.previousId ∧ ∃ p ∈ db.index, p.blockId = pid
  unlinked_prev : ∀ x ∈ db.unlinkedIndex, x.prev = none

/-- What every call of the fork database keeps, pruning included: one item per id, every `prev`
names the block's previous id, whose item may since have been erased, and the cached blocks are
not linked. -/
structure WellLinked (db : ForkDatabase) : Prop where
  nodup : (db.index.map ForkItem.blockId).Nodup
  prev_eq : ∀ x ∈ db.index, ∀ pid, x.prev = some pid → pid = x.previousId
  unlinked_prev : ∀ x ∈ db.unlinkedIndex, x.prev = none

variable {db : ForkDatabase}

theorem Linked.wellLinked (h : db.Linked) : db.WellLinked :=
  ⟨h.nodup, fun x hx pid hpid => (h.prev_eq x hx pid hpid).1, h.unlinked_prev⟩

namespace WellLinked

theorem find_eq_some_iff (h : db.WellLinked) {id : BlockId} {x : ForkItem} :
    db.find id = some x ↔ x ∈ db.index ∧ x.blockId = id :=
  KeyedList.find?_key_eq_some_iff ForkItem.blockId h.nodup

theorem eq_of_blockId_eq (h : db.WellLinked) {x y : ForkItem} (hx : x ∈ db.index) (hy : y ∈ db.index)
    (hid : x.blockId = y.blockId) : x = y :=
  KeyedList.eq_of_key_eq ForkItem.blockId h.nodup hx hy hid

theorem prevItem_spec (h : db.WellLinked) {x y : ForkItem} (hx : x ∈ db.index) (hy : db.prevItem x = some y) :
    y ∈ db.index ∧ y.blockId = x.previousId ∧ y.blockNum + 1 = x.blockNum := by
  unfold prevItem at hy
  cases hpx : x.prev with
  | none =>
    rw [hpx] at hy
    cases hy
  | some pid =>
    rw [hpx, Option.bind_some, h.find_eq_some_iff] at hy
    have hpid := h.prev_eq x hx pid hpx
    refine ⟨hy.1, hy.2.trans hpid, ?_⟩
    rw [x.blockNum_eq, ForkItem.blockNum, hy.2, hpid]

theorem anc_spec (h : db.WellLinked) : ∀ {k : Nat} {x y : ForkItem}, x ∈ db.index →
    anc db.prevItem k x = some y → y ∈ db.index ∧ y.blockNum + k = x.blockNum
  | 0, _, _, hx, hy => by
    cases hy
    exact ⟨hx, rfl⟩
  | k + 1, x, y, hx, hy => by
    rw [anc_succ'] at hy
    cases hz : anc db.prevItem k x with
    | none =>
      rw [hz] at hy
      cases hy
    | some z =>
      rw [hz, Option.bind_some] at hy
      obtain ⟨hzmem, hznum⟩ := h.anc_spec hx hz
      obtain ⟨hymem, -, hynum⟩ := h.prevItem_spec hzmem hy
      exact ⟨hymem, by omega⟩

end WellLinked

theorem find_eq_some_iff (h : db.Linked) {id : BlockId} {x : ForkItem} :
    db.find id = some x ↔ x ∈ db.index ∧ x.blockId = id :=
  h.wellLinked.find_eq_some_iff

theorem eq_of_blockId_eq (h : db.Linked) {x y : ForkItem} (hx : x ∈ db.index) (hy : y ∈ db.index)
    (hid : x.blockId = y.blockId) : x = y :=
  h.wellLinked.eq_of_blockId_eq hx hy hid

theorem prevItem_spec (h : db.Linked) {x y : ForkItem} (hx : x ∈ db.index) (hy : db.prevItem x = some y) :
    y ∈ db.index ∧ y.blockId = x.previousId ∧ y.blockNum + 1 = x.blockNum :=
  h.wellLinked.prevItem_spec hx hy

theorem anc_spec (h : db.Linked) {k : Nat} {x y : ForkItem} (hx : x ∈ db.index)
    (hy : anc db.prevItem k x = some y) : y ∈ db.index ∧ y.blockNum + k = x.blockNum :=
  h.wellLinked.anc_spec hx hy

/-! ## Building a linked database -/

theorem linkItem_eq_ok {item item' : ForkItem} (h : db.linkItem item = .ok item') :
    item' = item ∨ ∃ p, db.find item.previousId = some p ∧ item' = { item with prev := some p.blockId } := by
  unfold linkItem at h
  dsimp only at h
  repeat' split at h
  all_goals first
    | (cases h; exact .inl rfl)
    | (rename_i p hp _; cases h; exact .inr ⟨p, hp, rfl⟩)
    | cases h

@[simp] theorem insert_unlinkedIndex (item : ForkItem) : (db.insert item).unlinkedIndex = db.unlinkedIndex := by
  unfold insert
  split <;> rfl

@[simp] theorem add_unlinkedIndex (item : ForkItem) : (db.add item).unlinkedIndex = db.unlinkedIndex := by
  unfold add
  dsimp only
  split <;> exact insert_unlinkedIndex item

theorem add_index (item : ForkItem) : (db.add item).index = (db.insert item).index := by
  unfold add
  dsimp only
  split <;> rfl

theorem Linked.of_eq {db' : ForkDatabase} (h : db.Linked) (hi : db'.index = db.index)
    (hu : db'.unlinkedIndex = db.unlinkedIndex) : db'.Linked := by
  refine ⟨?_, ?_, ?_⟩
  · rw [hi]
    exact h.nodup
  · rw [hi]
    exact h.prev_eq
  · rw [hu]
    exact h.unlinked_prev

theorem Linked.insert (h : db.Linked) {item : ForkItem}
    (hitem : ∀ pid, item.prev = some pid → pid = item.previousId ∧ ∃ p ∈ db.index, p.blockId = pid) :
    (db.insert item).Linked := by
  unfold ForkDatabase.insert
  split
  · exact h
  · rename_i hfresh
    refine ⟨KeyedList.nodup_map_append_of_fresh ForkItem.blockId h.nodup fun c hc hid => hfresh ?_, ?_,
      h.unlinked_prev⟩
    · exact List.any_eq_true.2 ⟨c, hc, decide_eq_true hid⟩
    · intro x hx pid hpid
      rcases List.mem_append.1 hx with hx | hx
      · obtain ⟨hpid', p, hp, hpid''⟩ := h.prev_eq x hx pid hpid
        exact ⟨hpid', p, List.mem_append_left _ hp, hpid''⟩
      · rw [List.mem_singleton.1 hx] at hpid ⊢
        obtain ⟨hpid', p, hp, hpid''⟩ := hitem pid hpid
        exact ⟨hpid', p, List.mem_append_left _ hp, hpid''⟩

theorem Linked.add (h : db.Linked) {item : ForkItem}
    (hitem : ∀ pid, item.prev = some pid → pid = item.previousId ∧ ∃ p ∈ db.index, p.blockId = pid) :
    (db.add item).Linked :=
  (h.insert hitem).of_eq (add_index item) (by rw [add_unlinkedIndex, insert_unlinkedIndex])

end ForkDatabase

theorem run_linkBlock_ok {db : ForkDatabase} {item item' : ForkItem} (h : db.linkItem item = .ok item') :
    (linkBlock item).run db = .ok item' (db.add item') := by
  unfold linkBlock
  rw [run_bind_ok (run_get db), h]
  rfl

theorem run_linkBlock_error {db : ForkDatabase} {item : ForkItem} {e : ForkError} (h : db.linkItem item = .error e) :
    (linkBlock item).run db = .error e db := by
  unfold linkBlock
  rw [run_bind_ok (run_get db), h]
  rfl

namespace ForkDatabase

variable {db : ForkDatabase}

theorem keeps_linked_linkBlock {item : ForkItem} (hitem : item.prev = none) : Keeps Linked (linkBlock item) := by
  intro db hdb
  cases hlink : db.linkItem item with
  | error e =>
    rw [run_linkBlock_error hlink]
    exact hdb
  | ok item' =>
    rw [run_linkBlock_ok hlink]
    refine hdb.add fun pid hpid => ?_
    rcases linkItem_eq_ok hlink with rfl | ⟨p, hp, rfl⟩
    · rw [hitem] at hpid
      cases hpid
    · cases hpid
      obtain ⟨hpmem, hpid⟩ := (find_eq_some_iff hdb).1 hp
      exact ⟨hpid, p, hpmem, rfl⟩

theorem keeps_linked_pushNext : ∀ (fuel : Nat) (newItem : ForkItem), Keeps Linked (pushNext fuel newItem)
  | 0, _ => keeps_pure _
  | fuel + 1, newItem => by
    unfold pushNext
    refine keeps_get_bind fun db hdb => ?_
    split
    · exact hdb
    · rename_i tmp htmp
      have hfresh : tmp.prev = none := hdb.unlinked_prev tmp (List.mem_of_find?_eq_some htmp)
      have herase : Keeps Linked (modify fun db : ForkDatabase => { db with unlinkedIndex := db.unlinkedIndex.erase tmp }
          : ForkM PUnit) :=
        keeps_modify fun s hs => ⟨hs.nodup, hs.prev_eq, fun x hx => hs.unlinked_prev x (List.mem_of_mem_erase hx)⟩
      refine (herase.bind fun _ => Keeps.bind ?_ fun _ => keeps_linked_pushNext fuel newItem) db hdb
      -- the recursive push, whose assertion failures the handler swallows
      refine ((keeps_linked_linkBlock hfresh).bind fun item => keeps_linked_pushNext fuel item).tryCatch ?_
      intro e
      cases e with
      | assert msg => exact keeps_pure _
      | unlinkable => exact keeps_throw _

theorem keeps_linked_pushBlock (fullBlock : FullBlock) : Keeps Linked (pushBlock fullBlock) := by
  unfold pushBlock
  refine keeps_get_bind fun db hdb => ?_
  have hpush : Keeps Linked (pushBlockAux (db.unlinkedIndex.length + 1) { fullBlock }) :=
    (keeps_linked_linkBlock rfl).bind fun item => keeps_linked_pushNext _ item
  refine (Keeps.bind ?_ fun _ => keeps_get_bind (f := fun s => pure s.head) fun s hs => hs) db hdb
  refine hpush.tryCatch fun e => ?_
  cases e with
  | assert msg => exact keeps_throw _
  | unlinkable =>
    refine (keeps_modify fun s hs => ?_).bind fun _ => keeps_throw _
    unfold insertUnlinked
    split
    · exact hs
    · refine ⟨hs.nodup, hs.prev_eq, fun x hx => ?_⟩
      rcases List.mem_append.1 hx with hx | hx
      · exact hs.unlinked_prev x hx
      · rw [List.mem_singleton.1 hx]

/-- The fork databases `start_block` and `push_block` build from an empty one. -/
inductive Reachable : ForkDatabase → Prop
  | start (fullBlock : FullBlock) (maxSize : Nat) : Reachable (startBlock ⟨[], [], none, maxSize⟩ fullBlock)
  | push {db : ForkDatabase} (fullBlock : FullBlock) : Reachable db → Reachable (Result.state ((pushBlock fullBlock).run db))

theorem Reachable.linked (h : db.Reachable) : db.Linked := by
  induction h with
  | start fullBlock maxSize =>
    refine ⟨by simp [startBlock, insert], ?_, by simp [startBlock, insert]⟩
    intro x hx pid hpid
    simp only [startBlock, insert, List.any_nil, Bool.false_eq_true, if_false, List.nil_append,
      List.mem_singleton] at hx
    rw [hx] at hpid
    cases hpid
  | push fullBlock _ ih => exact keeps_linked_pushBlock fullBlock _ ih

/-! ## The walks of `fetch_branch_from` -/

theorem WellLinked.path_blockNum (h : db.WellLinked) : ∀ {k : Nat} {x z : ForkItem}, x ∈ db.index →
    anc db.prevItem k x = some z → (path db.prevItem k x).map ForkItem.blockNum = (List.range k).map (x.blockNum - ·)
  | 0, _, _, _, _ => rfl
  | k + 1, x, z, hx, hz => by
    obtain ⟨w, hw, -⟩ := anc_add_eq_some hz
    have hwnum := (h.anc_spec hx hw).2
    rw [path_succ_of_anc hw, List.map_append, h.path_blockNum hx hw, List.range_succ, List.map_append]
    simp only [List.map_cons, List.map_nil]
    rw [show x.blockNum - k = w.blockNum by omega]

theorem path_blockNum (h : db.Linked) {k : Nat} {x z : ForkItem} (hx : x ∈ db.index)
    (hz : anc db.prevItem k x = some z) :
    (path db.prevItem k x).map ForkItem.blockNum = (List.range k).map (x.blockNum - ·) :=
  h.wellLinked.path_blockNum hx hz

theorem walkWhile_eq {cond : ForkItem → Bool} {msg : String} :
    ∀ {d fuel : Nat} {out : List ForkItem} {x z : ForkItem}, d ≤ fuel → anc db.prevItem d x = some z →
      (∀ k < d, ∀ w, anc db.prevItem k x = some w → cond w = true) → cond z = false →
      db.walkWhile cond msg fuel out x = .ok (out ++ path db.prevItem d x, z)
  | 0, fuel, out, x, z, _, hz, _, hstop => by
    cases hz
    cases fuel <;> simp [walkWhile, hstop, path] <;> rfl
  | d + 1, 0, _, _, _, hd, _, _, _ => absurd hd (by omega)
  | d + 1, fuel + 1, out, x, z, hd, hz, hpass, hstop => by
    rw [anc_succ] at hz
    cases hy : db.prevItem x with
    | none =>
      rw [hy] at hz
      cases hz
    | some y =>
      rw [hy, Option.bind_some] at hz
      have hx : cond x = true := hpass 0 (Nat.succ_pos d) x rfl
      have hpass' : ∀ k < d, ∀ w, anc db.prevItem k y = some w → cond w = true := fun k hk w hw =>
        hpass (k + 1) (by omega) w (by rw [anc_succ, hy, Option.bind_some]; exact hw)
      rw [walkWhile, if_pos hx, hy]
      dsimp only
      rw [walkWhile_eq (by omega) hz hpass' hstop, path_succ_of_eq hy, List.append_assoc, List.singleton_append]

theorem walkBoth_eq :
    ∀ {t fuel : Nat} {out₁ out₂ : List ForkItem} {x y x' y' : ForkItem}, t ≤ fuel →
      anc db.prevItem t x = some x' → anc db.prevItem t y = some y' →
      (∀ k < t, ∀ u v, anc db.prevItem k x = some u → anc db.prevItem k y = some v → u.previousId ≠ v.previousId) →
      x'.previousId = y'.previousId →
      db.walkBoth fuel out₁ out₂ x y = .ok ((out₁ ++ path db.prevItem t x, out₂ ++ path db.prevItem t y), x', y')
  | 0, fuel, out₁, out₂, x, y, x', y', _, hx, hy, _, hstop => by
    cases hx
    cases hy
    cases fuel <;> simp [walkBoth, hstop, path] <;> rfl
  | t + 1, 0, _, _, _, _, _, _, ht, _, _, _, _ => absurd ht (by omega)
  | t + 1, fuel + 1, out₁, out₂, x, y, x', y', ht, hx, hy, hdiff, hstop => by
    rw [anc_succ] at hx hy
    cases hpx : db.prevItem x with
    | none =>
      rw [hpx] at hx
      cases hx
    | some u =>
      cases hpy : db.prevItem y with
      | none =>
        rw [hpy] at hy
        cases hy
      | some v =>
        rw [hpx, Option.bind_some] at hx
        rw [hpy, Option.bind_some] at hy
        have hne : x.previousId ≠ y.previousId := hdiff 0 (Nat.succ_pos t) x y rfl rfl
        have hdiff' : ∀ k < t, ∀ u' v', anc db.prevItem k u = some u' → anc db.prevItem k v = some v' →
            u'.previousId ≠ v'.previousId := fun k hk u' v' hu hv =>
          hdiff (k + 1) (by omega) u' v' (by rw [anc_succ, hpx, Option.bind_some]; exact hu)
            (by rw [anc_succ, hpy, Option.bind_some]; exact hv)
        rw [walkBoth, if_pos hne, hpx, hpy]
        dsimp only
        rw [walkBoth_eq (by omega) hx hy hdiff' hstop, path_succ_of_eq hpx, path_succ_of_eq hpy,
          List.append_assoc, List.singleton_append, List.append_assoc, List.singleton_append]

theorem fetchBranchFrom_eq (h : db.Linked) {a b : BlockId} {xa xb u v : ForkItem} {t : Nat}
    (ha : db.find a = some xa) (hb : db.find b = some xb)
    (hu : anc db.prevItem (xa.blockNum - xb.blockNum + t) xa = some u)
    (hv : anc db.prevItem (xb.blockNum - xa.blockNum + t) xb = some v)
    (hfirst : ∀ k < t, ∀ u' v', anc db.prevItem (xa.blockNum - xb.blockNum + k) xa = some u' →
      anc db.prevItem (xb.blockNum - xa.blockNum + k) xb = some v' → u'.previousId ≠ v'.previousId)
    (hstop : u.previousId = v.previousId) :
    db.fetchBranchFrom a b = .ok (if u.blockId ≠ v.blockId then
        (path db.prevItem (xa.blockNum - xb.blockNum + t + 1) xa,
          path db.prevItem (xb.blockNum - xa.blockNum + t + 1) xb)
      else (path db.prevItem (xa.blockNum - xb.blockNum + t) xa, path db.prevItem (xb.blockNum - xa.blockNum + t) xb)) := by
  obtain ⟨hxa, -⟩ := (find_eq_some_iff h).1 ha
  obtain ⟨hxb, -⟩ := (find_eq_some_iff h).1 hb
  obtain ⟨x₁, hx₁, hx₁u⟩ := anc_add_eq_some hu
  obtain ⟨y₁, hy₁, hy₁v⟩ := anc_add_eq_some hv
  have hx₁num := (anc_spec h hxa hx₁).2
  have hy₁num := (anc_spec h hxb hy₁).2
  have hunum := (anc_spec h hxa hu).2
  have hloop₁ : db.walkWhile (fun x => xb.blockNum < x.blockNum) "first_branch" xa.blockNum [] xa =
      .ok (path db.prevItem (xa.blockNum - xb.blockNum) xa, x₁) := by
    refine (walkWhile_eq (by omega) hx₁ (fun k hk w hw => ?_) (by simp only [decide_eq_false_iff_not]; omega)).trans
      (by rw [List.nil_append])
    have hwnum := (anc_spec h hxa hw).2
    simp only [decide_eq_true_eq]
    omega
  have hloop₂ : db.walkWhile (fun y => x₁.blockNum < y.blockNum) "second_branch" xb.blockNum [] xb =
      .ok (path db.prevItem (xb.blockNum - xa.blockNum) xb, y₁) := by
    refine (walkWhile_eq (by omega) hy₁ (fun k hk w hw => ?_) (by simp only [decide_eq_false_iff_not]; omega)).trans
      (by rw [List.nil_append])
    have hwnum := (anc_spec h hxb hw).2
    simp only [decide_eq_true_eq]
    omega
  have hloop₃ : db.walkBoth x₁.blockNum (path db.prevItem (xa.blockNum - xb.blockNum) xa)
      (path db.prevItem (xb.blockNum - xa.blockNum) xb) x₁ y₁ =
      .ok ((path db.prevItem (xa.blockNum - xb.blockNum + t) xa, path db.prevItem (xb.blockNum - xa.blockNum + t) xb),
        u, v) := by
    rw [walkBoth_eq (by omega) hx₁u hy₁v (fun k hk u' v' hu' hv' => hfirst k hk u' v'
      (by rw [anc_add, hx₁, Option.bind_some]; exact hu') (by rw [anc_add, hy₁, Option.bind_some]; exact hv')) hstop,
      ← path_add t hx₁, ← path_add t hy₁]
  unfold fetchBranchFrom
  simp only [ha, hb, hloop₁, hloop₂, hloop₃, bind, Except.bind]
  split
  · rw [path_succ_of_anc hu, path_succ_of_anc hv]
    rfl
  · rfl

theorem fetchBranchFrom_isLca (h : db.Linked) {a b : BlockId} {xa xb : ForkItem}
    (ha : db.find a = some xa) (hb : db.find b = some xb)
    (hmeet : ∃ i j c, anc db.prevItem i xa = some c ∧ anc db.prevItem j xb = some c) :
    ∃ i j c, IsLca db.prevItem xa xb i j c ∧
      db.fetchBranchFrom a b = .ok (path db.prevItem i xa, path db.prevItem j xb) := by
  classical
  obtain ⟨hxa, -⟩ := (find_eq_some_iff h).1 ha
  obtain ⟨hxb, -⟩ := (find_eq_some_iff h).1 hb
  obtain ⟨i₀, j₀, c₀, hi₀, hj₀⟩ := hmeet
  have hc₀a := (anc_spec h hxa hi₀).2
  have hc₀b := (anc_spec h hxb hj₀).2
  -- from one height, the first step `t` where the two branches have one previous id
  let P : Nat → Prop := fun t => ∃ u v, anc db.prevItem (xa.blockNum - xb.blockNum + t) xa = some u ∧
    anc db.prevItem (xb.blockNum - xa.blockNum + t) xb = some v ∧ u.previousId = v.previousId
  have hP : ∃ t, P t := ⟨i₀ - (xa.blockNum - xb.blockNum), c₀, c₀,
    by rw [show xa.blockNum - xb.blockNum + (i₀ - (xa.blockNum - xb.blockNum)) = i₀ by omega]; exact hi₀,
    by rw [show xb.blockNum - xa.blockNum + (i₀ - (xa.blockNum - xb.blockNum)) = j₀ by omega]; exact hj₀, rfl⟩
  obtain ⟨u, v, hu, hv, hstop⟩ := Nat.find_spec hP
  have hfirst : ∀ k < Nat.find hP, ∀ u' v', anc db.prevItem (xa.blockNum - xb.blockNum + k) xa = some u' →
      anc db.prevItem (xb.blockNum - xa.blockNum + k) xb = some v' → u'.previousId ≠ v'.previousId :=
    fun k hk u' v' hu' hv' heq => Nat.find_min hP hk ⟨u', v', hu', hv', heq⟩
  have hfetch := fetchBranchFrom_eq h ha hb hu hv hfirst hstop
  have hunum := (anc_spec h hxa hu).2
  -- every common ancestor lies at or below the step `t`, and at `t` only if the branches meet there
  have hbelow : ∀ i' j' c', anc db.prevItem i' xa = some c' → anc db.prevItem j' xb = some c' →
      xa.blockNum - xb.blockNum + Nat.find hP ≤ i' ∧ xb.blockNum - xa.blockNum + Nat.find hP ≤ j' ∧
      (i' = xa.blockNum - xb.blockNum + Nat.find hP → u = v) := by
    intro i' j' c' hi' hj'
    have hca := (anc_spec h hxa hi').2
    have hcb := (anc_spec h hxb hj').2
    have hle : Nat.find hP ≤ i' - (xa.blockNum - xb.blockNum) := Nat.find_min' hP ⟨c', c', by
      rw [show xa.blockNum - xb.blockNum + (i' - (xa.blockNum - xb.blockNum)) = i' by omega]; exact hi', by
      rw [show xb.blockNum - xa.blockNum + (i' - (xa.blockNum - xb.blockNum)) = j' by omega]; exact hj', rfl⟩
    refine ⟨by omega, by omega, fun hi't => ?_⟩
    rw [← hi't, hi'] at hu
    rw [show xb.blockNum - xa.blockNum + Nat.find hP = j' by omega, hj'] at hv
    exact (Option.some_injective _ hu).symm.trans (Option.some_injective _ hv)
  by_cases huv : u.blockId = v.blockId
  · -- the branches meet at `u`
    have hueqv : u = v := eq_of_blockId_eq h (anc_spec h hxa hu).1 (anc_spec h hxb hv).1 huv
    subst hueqv
    refine ⟨_, _, u, ⟨hu, hv, fun i' j' c' hi' hj' => ?_⟩, by rw [hfetch, if_neg (not_not.2 huv)]⟩
    obtain ⟨h₁, h₂, -⟩ := hbelow i' j' c' hi' hj'
    exact ⟨h₁, h₂⟩
  · -- `u` and `v` are different children of the block of their previous id
    have ht : xa.blockNum - xb.blockNum + Nat.find hP + 1 ≤ i₀ := by
      obtain ⟨h₁, -, h₃⟩ := hbelow i₀ j₀ c₀ hi₀ hj₀
      rcases Nat.lt_or_eq_of_le h₁ with hlt | heq
      · omega
      · exact absurd (congrArg ForkItem.blockId (h₃ heq.symm)) huv
    obtain ⟨c, hc, -⟩ := anc_add_eq_some (show anc db.prevItem (xa.blockNum - xb.blockNum + Nat.find hP + 1 +
      (i₀ - (xa.blockNum - xb.blockNum + Nat.find hP + 1))) xa = some c₀ by
        rw [show xa.blockNum - xb.blockNum + Nat.find hP + 1 + (i₀ - (xa.blockNum - xb.blockNum + Nat.find hP + 1)) =
          i₀ by omega]
        exact hi₀)
    obtain ⟨c', hc', -⟩ := anc_add_eq_some (show anc db.prevItem (xb.blockNum - xa.blockNum + Nat.find hP + 1 +
      (j₀ - (xb.blockNum - xa.blockNum + Nat.find hP + 1))) xb = some c₀ by
        rw [show xb.blockNum - xa.blockNum + Nat.find hP + 1 + (j₀ - (xb.blockNum - xa.blockNum + Nat.find hP + 1)) =
          j₀ by omega]
        exact hj₀)
    have hpu : db.prevItem u = some c := by rw [anc_succ', hu, Option.bind_some] at hc; exact hc
    have hpv : db.prevItem v = some c' := by rw [anc_succ', hv, Option.bind_some] at hc'; exact hc'
    have hcc : c = c' := eq_of_blockId_eq h (anc_spec h hxa hc).1 (anc_spec h hxb hc').1
      (((prevItem_spec h (anc_spec h hxa hu).1 hpu).2.1.trans hstop).trans
        (prevItem_spec h (anc_spec h hxb hv).1 hpv).2.1.symm)
    subst hcc
    refine ⟨_, _, c, ⟨hc, hc', fun i' j' c'' hi' hj' => ?_⟩, by rw [hfetch, if_pos huv]⟩
    obtain ⟨h₁, h₂, h₃⟩ := hbelow i' j' c'' hi' hj'
    have hne : i' ≠ xa.blockNum - xb.blockNum + Nat.find hP := fun heq =>
      huv (congrArg ForkItem.blockId (h₃ heq))
    have hca := (anc_spec h hxa hi').2
    have hcb := (anc_spec h hxb hj').2
    omega

end ForkDatabase

/-! ## `fetch_branch_from` -/

open ForkDatabase

/-- `fetch_branch_from` returns the two branches down to the lowest common ancestor. For every
fork database built by `start_block` and `push_block`, and two of its blocks whose chains
meet, there is a lowest common ancestor `c`, `i` and `j` steps below `a` and `b`, and
`fetch_branch_from` returns the `i` blocks from `a` down to `c` and the `j` from `b`, without
`c`, each one block lower than the one before; when both are non-empty their last blocks are
different children of `c`, and one is empty exactly when one block is the other or below it. -/
theorem fetch_branch_from_lca {db : ForkDatabase} (hdb : db.Reachable) {a b : BlockId} {xa xb : ForkItem}
    (ha : db.find a = some xa) (hb : db.find b = some xb)
    (hmeet : ∃ i j c, anc db.prevItem i xa = some c ∧ anc db.prevItem j xb = some c) :
    ∃ i j c, IsLca db.prevItem xa xb i j c ∧
      db.fetchBranchFrom a b = .ok (path db.prevItem i xa, path db.prevItem j xb) ∧
      (path db.prevItem i xa).map ForkItem.blockNum = (List.range i).map (xa.blockNum - ·) ∧
      (path db.prevItem j xb).map ForkItem.blockNum = (List.range j).map (xb.blockNum - ·) ∧
      (0 < i → 0 < j → ∃ u v, anc db.prevItem (i - 1) xa = some u ∧ anc db.prevItem (j - 1) xb = some v ∧
        u ≠ v ∧ db.prevItem u = some c ∧ db.prevItem v = some c) ∧
      (i = 0 ∨ j = 0 ↔ (∃ k, anc db.prevItem k xa = some xb) ∨ ∃ k, anc db.prevItem k xb = some xa) := by
  have h := hdb.linked
  obtain ⟨i, j, c, hlca, hfetch⟩ := fetchBranchFrom_isLca h ha hb hmeet
  exact ⟨i, j, c, hlca, hfetch, path_blockNum h ((find_eq_some_iff h).1 ha).1 hlca.left,
    path_blockNum h ((find_eq_some_iff h).1 hb).1 hlca.right, hlca.children, hlca.eq_zero_iff⟩

def forkSample : ForkDatabase :=
  Result.state ((pushBlock ⟨⟨2, 21⟩, ⟨1, 10⟩, rfl⟩).run (Result.state ((pushBlock ⟨⟨2, 20⟩, ⟨1, 10⟩, rfl⟩).run
    (startBlock ⟨[], [], none, 1024⟩ ⟨⟨1, 10⟩, BlockId.zero, rfl⟩))))

theorem fetch_branch_from_lca_sample :
    ∃ i j c, IsLca forkSample.prevItem ⟨⟨⟨2, 20⟩, ⟨1, 10⟩, rfl⟩, some ⟨1, 10⟩, false⟩
        ⟨⟨⟨2, 21⟩, ⟨1, 10⟩, rfl⟩, some ⟨1, 10⟩, false⟩ i j c ∧
      forkSample.fetchBranchFrom ⟨2, 20⟩ ⟨2, 21⟩ =
        .ok (path forkSample.prevItem i ⟨⟨⟨2, 20⟩, ⟨1, 10⟩, rfl⟩, some ⟨1, 10⟩, false⟩,
          path forkSample.prevItem j ⟨⟨⟨2, 21⟩, ⟨1, 10⟩, rfl⟩, some ⟨1, 10⟩, false⟩) := by
  obtain ⟨i, j, c, hlca, hfetch, -⟩ := fetch_branch_from_lca (.push _ (.push _ (.start _ _)))
    (show forkSample.find ⟨2, 20⟩ = some ⟨⟨⟨2, 20⟩, ⟨1, 10⟩, rfl⟩, some ⟨1, 10⟩, false⟩ by decide)
    (show forkSample.find ⟨2, 21⟩ = some ⟨⟨⟨2, 21⟩, ⟨1, 10⟩, rfl⟩, some ⟨1, 10⟩, false⟩ by decide)
    ⟨1, 1, ⟨⟨⟨1, 10⟩, BlockId.zero, rfl⟩, none, false⟩, by decide, by decide⟩
  exact ⟨i, j, c, hlca, hfetch⟩

end Chain
end HiveChain
