import HiveChain.Chain.ForkDatabaseRuns

/-!
# HiveChain.Chain.ForkDatabaseOrder

Blocks that reach the fork database in any order leave it in one state.

* `Reaches D K b` — the block `b` of `K` links to an item of `D`'s index through blocks of `K`,
  each the previous block of the next.
* `Arrived` and `Kept` — what holds after each `push_block` of a run of arrivals: `D`'s items stay,
  every other linked item is a block that arrived (or that the cache held) whose previous block is
  linked, the cache holds fresh items of such blocks, and none of these blocks is lost.
* `push_order_irrelevant` — pushing the blocks in any order gives the same index and the same
  cache, up to the order of the lists, and a head of the same number: the index holds `D`'s items
  and the blocks that reach them, the cache the other blocks.
* `linked_without_previous_block` — a block whose previous id is `block_id_type()` is linked
  although no block of the database is its previous block.
-/

namespace HiveChain
namespace Chain

open EState

/-- The item `_push_block` links for a block: `prev` points at its previous block. -/
def FullBlock.linkedItem (fullBlock : FullBlock) : ForkItem :=
  { fullBlock, prev := some fullBlock.previousId }

/-- `push_block` of each block in turn, what it throws caught by the caller. -/
def pushBlocks (bs : List FullBlock) (db : ForkDatabase) : ForkDatabase :=
  runForkOps (bs.map ForkOp.pushBlock) db

namespace ForkDatabase

/-- The blocks of the cache. -/
def cachedBlocks (db : ForkDatabase) : List FullBlock := db.unlinkedIndex.map ForkItem.fullBlock

/-- What holds of a fork database that `push_block` calls leave: sound links, the head its
highest linked block, no linked block invalid, and a cache of fresh items under distinct ids that
no linked block holds, each waiting for its previous block. -/
structure Settled (D : ForkDatabase) : Prop where
  wellLinked : D.WellLinked
  headed : D.Headed
  waiting : D.Waiting
  valid : ∀ x ∈ D.index, x.invalid = false
  fresh : ∀ x ∈ D.unlinkedIndex, x = { fullBlock := x.fullBlock }
  nodup_cache : (D.unlinkedIndex.map ForkItem.blockId).Nodup
  cache_unlinked : ∀ x ∈ D.unlinkedIndex, ∀ y ∈ D.index, y.blockId ≠ x.blockId

/-- `Reaches D K b`: the block `b` of `K` links to an item of `D`'s index through blocks of `K`,
each the previous block of the next. -/
inductive Reaches (D : ForkDatabase) (K : List FullBlock) : FullBlock → Prop
  | base {b : FullBlock} : b ∈ K → (∃ p ∈ D.index, p.blockId = b.previousId) → Reaches D K b
  | step {b c : FullBlock} : b ∈ K → c ∈ K → c.blockId = b.previousId → Reaches D K c →
      Reaches D K b

theorem Reaches.mono {D : ForkDatabase} {K K' : List FullBlock} (hK : ∀ x ∈ K, x ∈ K')
    {b : FullBlock} (h : Reaches D K b) : Reaches D K' b := by
  induction h with
  | base hb hp => exact .base (hK _ hb) hp
  | step hb hc hid _ ih => exact .step (hK _ hb) (hK _ hc) hid ih

/-- Blocks that arrive at `D`, taken with the blocks its cache holds: distinct ids that no linked
block of `D` holds, a previous block each (no previous id is `block_id_type()`), and block numbers
at most `M`, which no linked block of `D` exceeds either, and above `M - max_size`. -/
structure Arrivals (D : ForkDatabase) (bs : List FullBlock) (M : Nat) : Prop where
  nodup : ((D.cachedBlocks ++ bs).map FullBlock.blockId).Nodup
  unlinked : ∀ b ∈ bs, ∀ x ∈ D.index, x.blockId ≠ b.blockId
  previous : ∀ b ∈ D.cachedBlocks ++ bs, b.previousId ≠ BlockId.zero
  index_le : ∀ x ∈ D.index, x.blockNum ≤ M
  le : ∀ b ∈ D.cachedBlocks ++ bs, b.blockId.num ≤ M
  young : ∀ b ∈ D.cachedBlocks ++ bs, M - D.maxSize < b.blockId.num

/-- The state after some of the arrivals, `S` being the blocks the cache held at the start and
those pushed so far: `D`'s items stay, every other linked item is a block of `S` whose previous
block is linked, and the cache holds fresh items of `S` under distinct ids. -/
structure Arrived (D : ForkDatabase) (S : List FullBlock) (db : ForkDatabase) : Prop where
  maxSize : db.maxSize = D.maxSize
  headed : db.Headed
  base : ∀ x ∈ D.index, x ∈ db.index
  index : ∀ x ∈ db.index, x ∈ D.index ∨
    ∃ b ∈ S, x = b.linkedItem ∧ ∃ p ∈ db.index, p.blockId = b.previousId
  cache : ∀ x ∈ db.unlinkedIndex, ∃ b ∈ S, x = { fullBlock := b }
  nodup_cache : (db.unlinkedIndex.map ForkItem.blockId).Nodup

/-- Every block of `S` is linked or cached. -/
def Kept (S : List FullBlock) (db : ForkDatabase) : Prop :=
  ∀ b ∈ S, b.linkedItem ∈ db.index ∨ { fullBlock := b } ∈ db.unlinkedIndex

section Arrivals

variable {D db : ForkDatabase} {bs S : List FullBlock} {M : Nat}

theorem Arrivals.unlinked_all (hD : D.Settled) (ha : Arrivals D bs M) :
    ∀ b ∈ D.cachedBlocks ++ bs, ∀ x ∈ D.index, x.blockId ≠ b.blockId := by
  intro b hb x hx
  rcases List.mem_append.1 hb with hb | hb
  · obtain ⟨c, hc, rfl⟩ := List.mem_map.1 hb
    exact hD.cache_unlinked c hc x hx
  · exact ha.unlinked b hb x hx

theorem Arrivals.eq_of_blockId_eq (ha : Arrivals D bs M) {b c : FullBlock}
    (hb : b ∈ D.cachedBlocks ++ bs) (hc : c ∈ D.cachedBlocks ++ bs) (h : b.blockId = c.blockId) :
    b = c :=
  KeyedList.eq_of_key_eq FullBlock.blockId ha.nodup hb hc h

theorem Arrivals.perm (ha : Arrivals D bs M) {bs' : List FullBlock} (hperm : bs.Perm bs') :
    Arrivals D bs' M := by
  have hK : ∀ b, b ∈ D.cachedBlocks ++ bs' → b ∈ D.cachedBlocks ++ bs := fun b hb =>
    (hperm.append_left D.cachedBlocks).mem_iff.2 hb
  exact ⟨((hperm.append_left D.cachedBlocks).map FullBlock.blockId).nodup_iff.1 ha.nodup,
    fun b hb => ha.unlinked b (hperm.mem_iff.2 hb), fun b hb => ha.previous b (hK b hb),
    ha.index_le, fun b hb => ha.le b (hK b hb), fun b hb => ha.young b (hK b hb)⟩

end Arrivals

/-! ## One `_push_block` -/

section Push

variable {db : ForkDatabase}

@[simp] theorem add_maxSize (item : ForkItem) : (db.add item).maxSize = db.maxSize := by
  unfold add insert
  dsimp only
  split_ifs <;> rfl

@[simp] theorem insertUnlinked_maxSize (item : ForkItem) : (db.insertUnlinked item).maxSize = db.maxSize := by
  unfold insertUnlinked
  split <;> rfl

theorem find_of_mem {id : BlockId} (h : ∃ p ∈ db.index, p.blockId = id) :
    ∃ q, db.find id = some q ∧ q ∈ db.index ∧ q.blockId = id := by
  obtain ⟨p, hp, hpid⟩ := h
  cases hf : db.find id with
  | none => exact absurd (decide_eq_true hpid) (List.find?_eq_none.1 hf p hp)
  | some q =>
    have hf' : db.index.find? (fun x => x.blockId = id) = some q := hf
    exact ⟨q, rfl, List.mem_of_find?_eq_some hf',
      of_decide_eq_true (List.find?_some (p := fun x : ForkItem => decide (x.blockId = id)) hf')⟩

/-- A block younger than `max_size` below the head, whose previous block is linked and valid,
is linked with `prev` at that block. -/
theorem linkItem_eq_linkedItem {b : FullBlock} (hh : db.Headed)
    (hage : ∀ h, db.head = some h → h.blockNum - db.maxSize < b.blockId.num)
    (hz : b.previousId ≠ BlockId.zero) (hv : ∀ x ∈ db.index, x.invalid = false)
    (hp : ∃ p ∈ db.index, p.blockId = b.previousId) :
    db.linkItem { fullBlock := b } = .ok b.linkedItem := by
  obtain ⟨h, hh, -, -⟩ := hh
  obtain ⟨q, hq, hqmem, hqid⟩ := find_of_mem hp
  have hlt : h.fullBlock.blockId.num - db.maxSize < b.blockId.num := hage h hh
  have hqid' : q.fullBlock.blockId = b.previousId := hqid
  unfold linkItem
  simp only [hh, ForkItem.blockNum, ForkItem.previousId, hq, hv q hqmem]
  simp [ForkItem.blockId, hlt, hz, FullBlock.linkedItem, hqid']
  rfl

/-- A block younger than `max_size` below the head, whose previous block is not linked, is
unlinkable. -/
theorem linkItem_eq_unlinkable {b : FullBlock} (hh : db.Headed)
    (hage : ∀ h, db.head = some h → h.blockNum - db.maxSize < b.blockId.num)
    (hz : b.previousId ≠ BlockId.zero) (hp : ∀ p ∈ db.index, p.blockId ≠ b.previousId) :
    db.linkItem { fullBlock := b } = .error .unlinkable := by
  obtain ⟨h, hh, -, -⟩ := hh
  have hq : db.find b.previousId = none :=
    List.find?_eq_none.2 fun p hp' hdec => hp p hp' (of_decide_eq_true hdec)
  have hlt : h.fullBlock.blockId.num - db.maxSize < b.blockId.num := hage h hh
  unfold linkItem
  simp only [hh, ForkItem.blockNum, ForkItem.previousId, hq]
  simp [ForkItem.blockId, hlt, hz]
  rfl

theorem state_pushBlock_of_link {fullBlock : FullBlock} {item : ForkItem} {db' : ForkDatabase}
    (hlink : db.linkItem { fullBlock } = .ok item)
    (hrun : (pushNext (db.unlinkedIndex.length + 1) item).run (db.add item) = .ok () db') :
    Result.state ((pushBlock fullBlock).run db) = db' := by
  unfold pushBlock
  rw [run_bind_ok (run_get db)]
  have hbody : (pushBlockAux (db.unlinkedIndex.length + 1) { fullBlock }).run db = .ok () db' :=
    (run_bind_ok (run_linkBlock_ok hlink)).trans hrun
  rw [run_bind_ok (run_tryCatch_ok hbody)]
  rfl

theorem state_pushBlock_of_unlinkable {fullBlock : FullBlock}
    (hlink : db.linkItem { fullBlock } = .error .unlinkable) :
    Result.state ((pushBlock fullBlock).run db) = db.insertUnlinked { fullBlock } := by
  unfold pushBlock
  rw [run_bind_ok (run_get db)]
  have hbody : (pushBlockAux (db.unlinkedIndex.length + 1) { fullBlock }).run db = .error .unlinkable db :=
    run_bind_error (run_linkBlock_error hlink)
  rw [run_bind_tryCatch_error hbody]
  rfl

end Push

/-! ## The run of arrivals -/

section Run

variable {D db : ForkDatabase} {bs S : List FullBlock} {M : Nat}

theorem insertUnlinked_of_fresh {item : ForkItem} (h : ∀ x ∈ db.unlinkedIndex, x.blockId ≠ item.blockId) :
    db.insertUnlinked item = { db with unlinkedIndex := db.unlinkedIndex ++ [item] } := by
  unfold insertUnlinked
  rw [if_neg]
  simpa using h

theorem Arrived.mono (h : Arrived D S db) {S' : List FullBlock} (hS : ∀ x ∈ S, x ∈ S') : Arrived D S' db := by
  refine ⟨h.maxSize, h.headed, h.base, fun x hx => ?_, fun x hx => ?_, h.nodup_cache⟩
  · rcases h.index x hx with hx | ⟨b, hb, hxb, hp⟩
    · exact .inl hx
    · exact .inr ⟨b, hS b hb, hxb, hp⟩
  · obtain ⟨b, hb, hxb⟩ := h.cache x hx
    exact ⟨b, hS b hb, hxb⟩

theorem Arrived.erase (h : Arrived D S db) (tmp : ForkItem) :
    Arrived D S { db with unlinkedIndex := db.unlinkedIndex.erase tmp } :=
  ⟨h.maxSize, h.headed.of_eq rfl rfl, h.base, h.index, fun x hx => h.cache x (List.mem_of_mem_erase hx),
    h.nodup_cache.sublist (List.erase_sublist.map _)⟩

theorem Arrived.add (h : Arrived D S db) {c : FullBlock} (hc : c ∈ S)
    (hp : ∃ p ∈ db.index, p.blockId = c.previousId) : Arrived D S (db.add c.linkedItem) := by
  refine ⟨by rw [add_maxSize]; exact h.maxSize, h.headed.add _, fun x hx => mem_add_index (h.base x hx),
    fun x hx => ?_, fun x hx => h.cache x (by rwa [add_unlinkedIndex] at hx),
    by rw [add_unlinkedIndex]; exact h.nodup_cache⟩
  rcases mem_add_index_iff hx with hx | rfl
  · rcases h.index x hx with hx | ⟨b, hb, hxb, p, hp, hpid⟩
    · exact .inl hx
    · exact .inr ⟨b, hb, hxb, p, mem_add_index hp, hpid⟩
  · obtain ⟨p, hp, hpid⟩ := hp
    exact .inr ⟨c, hc, rfl, p, mem_add_index hp, hpid⟩

theorem Arrived.insertUnlinked (h : Arrived D S db) {c : FullBlock}
    (hfresh : ∀ x ∈ db.unlinkedIndex, x.blockId ≠ c.blockId) :
    Arrived D (S ++ [c]) (db.insertUnlinked { fullBlock := c }) := by
  rw [insertUnlinked_of_fresh hfresh]
  have h' := h.mono fun x hx => List.mem_append_left [c] hx
  refine ⟨h.maxSize, h.headed.of_eq rfl rfl, h.base, h'.index, fun x hx => ?_, ?_⟩
  · rcases List.mem_append.1 hx with hx | hx
    · exact h'.cache x hx
    · exact ⟨c, List.mem_append_right S (List.mem_singleton_self c), List.mem_singleton.1 hx⟩
  · rw [List.map_append]
    refine h.nodup_cache.append (List.nodup_singleton _) fun a ha hc' => ?_
    obtain ⟨x, hx, rfl⟩ := List.mem_map.1 ha
    exact hfresh x hx (List.mem_singleton.1 hc')

variable (hD : D.Settled) (ha : Arrivals D bs M) (hS : ∀ x ∈ S, x ∈ D.cachedBlocks ++ bs)
include hD ha hS

omit hD in
theorem Arrived.blockNum_le (h : Arrived D S db) : ∀ x ∈ db.index, x.blockNum ≤ M := by
  intro x hx
  rcases h.index x hx with hx | ⟨b, hb, rfl, -⟩
  · exact ha.index_le x hx
  · exact ha.le b (hS b hb)

omit hD in
/-- The age check passes for every block of the arrivals: the head is no higher than `M`. -/
theorem Arrived.young (h : Arrived D S db) {c : FullBlock} (hc : c ∈ D.cachedBlocks ++ bs) :
    ∀ hd, db.head = some hd → hd.blockNum - db.maxSize < c.blockId.num := by
  intro hd hhd
  obtain ⟨hd', hhd', hmem, -⟩ := h.headed
  obtain rfl : hd = hd' := Option.some.inj (hhd.symm.trans hhd')
  have hle := h.blockNum_le ha hS hd hmem
  have hyoung := ha.young c hc
  rw [h.maxSize]
  omega

theorem Arrived.eq_linkedItem (h : Arrived D S db) {c : FullBlock} (hc : c ∈ D.cachedBlocks ++ bs)
    {x : ForkItem} (hx : x ∈ db.index) (hid : x.blockId = c.blockId) : x = c.linkedItem := by
  rcases h.index x hx with hx | ⟨b, hb, rfl, -⟩
  · exact absurd hid (ha.unlinked_all hD c hc x hx)
  · rw [ha.eq_of_blockId_eq (hS b hb) hc hid]

/-- A block of the arrivals whose previous block is linked is linked: the age check, the
`invalid` check and the find all pass. -/
theorem Arrived.linkItem (h : Arrived D S db) {c : FullBlock} (hc : c ∈ D.cachedBlocks ++ bs)
    (hp : ∃ p ∈ db.index, p.blockId = c.previousId) :
    db.linkItem { fullBlock := c } = .ok c.linkedItem := by
  refine linkItem_eq_linkedItem h.headed (h.young ha hS hc) (ha.previous c hc) (fun x hx => ?_) hp
  rcases h.index x hx with hx | ⟨b, -, rfl, -⟩
  · exact hD.valid x hx
  · rfl

omit hD in
theorem Arrived.unlinkable (h : Arrived D S db) {c : FullBlock} (hc : c ∈ D.cachedBlocks ++ bs)
    (hp : ∀ p ∈ db.index, p.blockId ≠ c.previousId) :
    db.linkItem { fullBlock := c } = .error .unlinkable :=
  linkItem_eq_unlinkable h.headed (h.young ha hS hc) (ha.previous c hc) hp

/-- After the link of `c`, every block of `S` that was kept is kept, and `c` is linked. -/
theorem Arrived.kept_add {c : FullBlock} (h : Arrived D S (db.add c.linkedItem))
    (hc : c ∈ D.cachedBlocks ++ bs)
    (hk : ∀ b ∈ S, b ≠ c → b.linkedItem ∈ db.index ∨ { fullBlock := b } ∈ db.unlinkedIndex) :
    Kept S (db.add c.linkedItem) := by
  intro b hb
  by_cases hbc : b = c
  · subst hbc
    obtain ⟨q, hq, hqid⟩ : ∃ q ∈ (db.add b.linkedItem).index, q.blockId = b.blockId := add_known _
    exact .inl (h.eq_linkedItem hD ha hS hc hq hqid ▸ hq)
  · rcases hk b hb hbc with hl | hcache
    · exact .inl (mem_add_index hl)
    · exact .inr (by rw [add_unlinkedIndex]; exact hcache)

/-- `_push_next` keeps the run's invariant: a cached block of the arrivals whose previous block
is linked is taken out of the cache and linked, and its own children after it. -/
theorem arrived_pushNext : ∀ (fuel : Nat) (newItem : ForkItem) (db : ForkDatabase),
    db.unlinkedIndex.length < fuel → (∃ p ∈ db.index, p.blockId = newItem.blockId) →
    Arrived D S db → Kept S db →
    ∃ db', (pushNext fuel newItem).run db = .ok () db' ∧ Grows db db' ∧ Arrived D S db' ∧ Kept S db'
  | 0, _, _, hlen, _, _, _ => absurd hlen (Nat.not_lt_zero _)
  | fuel + 1, newItem, db, hlen, hnew, harr, hk => by
    cases hfind : db.unlinkedIndex.find? (fun x => x.previousId = newItem.blockId) with
    | none => exact ⟨db, run_pushNext_none hfind, Grows.refl db, harr, hk⟩
    | some tmp =>
      obtain ⟨htmp, htmpid⟩ := find?_previousId_eq_some hfind
      obtain ⟨c, hc, rfl⟩ := harr.cache tmp htmp
      let db₁ : ForkDatabase := { db with unlinkedIndex := db.unlinkedIndex.erase { fullBlock := c } }
      have hlen₁ : db₁.unlinkedIndex.length < fuel := length_erase_lt htmp hlen
      have hgrow₁ : Grows db db₁ := Grows.erase _
      have harr₁ : Arrived D S db₁ := harr.erase _
      have hp : ∃ p ∈ db₁.index, p.blockId = c.previousId :=
        let ⟨p, hp, hpid⟩ := hnew; ⟨p, hp, hpid.trans htmpid.symm⟩
      -- the cached block links: its previous block is `newItem`, which is linked
      have hlink := harr₁.linkItem hD ha hS (hS c hc) hp
      have harr₂ : Arrived D S (db₁.add c.linkedItem) := harr₁.add hc hp
      have hk₂ : Kept S (db₁.add c.linkedItem) := harr₂.kept_add hD ha hS (hS c hc) fun b hb hbc =>
        (hk b hb).imp id fun hcache =>
          (List.mem_erase_of_ne fun heq => hbc (congrArg ForkItem.fullBlock heq)).2 hcache
      have hgrow₂ : Grows db₁ (db₁.add c.linkedItem) := ⟨fun _ hx => mem_add_index hx, by rw [add_unlinkedIndex]⟩
      obtain ⟨db₃, hrun₃, hgrow₃, harr₃, hk₃⟩ := arrived_pushNext fuel c.linkedItem (db₁.add c.linkedItem)
        (by rw [add_unlinkedIndex]; exact hlen₁) (add_known _) harr₂ hk₂
      have hbody : (pushNextBody fuel { fullBlock := c }).run db₁ = .ok () db₃ :=
        run_tryCatch_ok ((run_bind_ok (run_linkBlock_ok hlink)).trans hrun₃)
      have hgrow := hgrow₂.trans hgrow₃
      obtain ⟨db₄, hrun₄, hgrow₄, harr₄, hk₄⟩ := arrived_pushNext fuel newItem db₃
        (lt_of_le_of_lt hgrow.cache hlen₁)
        (let ⟨p, hp, hpid⟩ := hnew; ⟨p, hgrow.index p (hgrow₁.index p hp), hpid⟩) harr₃ hk₃
      exact ⟨db₄, ((run_pushNext_some hfind).trans (run_bind_ok hbody)).trans hrun₄,
        hgrow₁.trans (hgrow.trans hgrow₄), harr₄, hk₄⟩

end Run

/-- `_push_block` of a block of the arrivals not pushed before keeps the run's invariant: the
block is linked, with the cached blocks that wait on it, or it is cached. -/
theorem arrived_pushBlock {D db : ForkDatabase} {bs S : List FullBlock} {M : Nat} {b : FullBlock}
    (hD : D.Settled) (ha : Arrivals D bs M) (hS : ∀ x ∈ S ++ [b], x ∈ D.cachedBlocks ++ bs) (hb : b ∉ S)
    (harr : Arrived D S db) (hk : Kept S db) :
    Arrived D (S ++ [b]) (Result.state ((pushBlock b).run db)) ∧
      Kept (S ++ [b]) (Result.state ((pushBlock b).run db)) := by
  have hbS : b ∈ S ++ [b] := List.mem_append_right S (List.mem_singleton_self b)
  have hbK : b ∈ D.cachedBlocks ++ bs := hS b hbS
  have harr' : Arrived D (S ++ [b]) db := harr.mono fun x hx => List.mem_append_left [b] hx
  have hk' : ∀ x ∈ S ++ [b], x ≠ b → x.linkedItem ∈ db.index ∨ { fullBlock := x } ∈ db.unlinkedIndex :=
    fun x hx hxb => hk x ((List.mem_append.1 hx).resolve_right fun h => hxb (List.mem_singleton.1 h))
  by_cases hp : ∃ p ∈ db.index, p.blockId = b.previousId
  · have hlink := harr'.linkItem hD ha hS hbK hp
    have harr₁ : Arrived D (S ++ [b]) (db.add b.linkedItem) := harr'.add hbS hp
    have hk₁ : Kept (S ++ [b]) (db.add b.linkedItem) := harr₁.kept_add hD ha hS hbK hk'
    obtain ⟨db', hrun, -, harr₂, hk₂⟩ := arrived_pushNext hD ha hS (db.unlinkedIndex.length + 1) b.linkedItem
      (db.add b.linkedItem) (by rw [add_unlinkedIndex]; omega) (add_known _) harr₁ hk₁
    rw [state_pushBlock_of_link hlink hrun]
    exact ⟨harr₂, hk₂⟩
  · -- the block waits in the cache: no cached block holds its id, for the ids are distinct
    have hunl := harr'.unlinkable ha hS hbK fun p hp' hpid => hp ⟨p, hp', hpid⟩
    have hfresh : ∀ x ∈ db.unlinkedIndex, x.blockId ≠ b.blockId := by
      intro x hx hid
      obtain ⟨c, hc, rfl⟩ := harr.cache x hx
      have hcb : c = b := ha.eq_of_blockId_eq (hS c (List.mem_append_left [b] hc)) hbK hid
      exact hb (hcb ▸ hc)
    rw [state_pushBlock_of_unlinkable hunl]
    refine ⟨harr.insertUnlinked hfresh, fun x hx => ?_⟩
    rw [insertUnlinked_of_fresh hfresh]
    by_cases hxb : x = b
    · exact .inr (List.mem_append_right _ (List.mem_singleton.2 (hxb ▸ rfl)))
    · exact (hk' x hx hxb).imp id fun hcache => List.mem_append_left _ hcache

theorem Settled.arrived {D : ForkDatabase} (hD : D.Settled) : Arrived D D.cachedBlocks D :=
  ⟨rfl, hD.headed, fun _ hx => hx, fun _ hx => .inl hx,
    fun x hx => ⟨x.fullBlock, List.mem_map_of_mem hx, hD.fresh x hx⟩, hD.nodup_cache⟩

theorem Settled.kept {D : ForkDatabase} (hD : D.Settled) : Kept D.cachedBlocks D := by
  intro b hb
  obtain ⟨x, hx, rfl⟩ := List.mem_map.1 hb
  rw [← hD.fresh x hx]
  exact .inr hx

section Arrivals

variable {D : ForkDatabase} {bs : List FullBlock} {M : Nat}

/-- The run of `push_block` over the arrivals, `pre` being pushed and `rest` to come: the
invariant holds at the end, and the cache still waits (`waiting_pushBlock`). -/
theorem arrived_pushBlocks (hD : D.Settled) (ha : Arrivals D bs M) :
    ∀ (rest pre : List FullBlock) (db : ForkDatabase), pre ++ rest = bs →
      Arrived D (D.cachedBlocks ++ pre) db → Kept (D.cachedBlocks ++ pre) db → db.Waiting →
      Arrived D (D.cachedBlocks ++ bs) (pushBlocks rest db) ∧
        Kept (D.cachedBlocks ++ bs) (pushBlocks rest db) ∧ (pushBlocks rest db).Waiting
  | [], pre, db, hbs, harr, hk, hw => by
    rw [List.append_nil] at hbs
    subst hbs
    exact ⟨harr, hk, hw⟩
  | b :: rest, pre, db, hbs, harr, hk, hw => by
    have hsplit : D.cachedBlocks ++ bs = (D.cachedBlocks ++ pre) ++ b :: rest := by
      rw [← hbs, List.append_assoc]
    have hS : ∀ x ∈ D.cachedBlocks ++ pre ++ [b], x ∈ D.cachedBlocks ++ bs := by
      intro x hx
      rw [hsplit]
      rcases List.mem_append.1 hx with hx | hx
      · exact List.mem_append_left _ hx
      · exact List.mem_append_right _ (List.mem_singleton.1 hx ▸ List.mem_cons_self)
    have hnd : ((D.cachedBlocks ++ pre) ++ b :: rest).Nodup := by
      rw [← hsplit]
      exact ha.nodup.of_map _
    have hb : b ∉ D.cachedBlocks ++ pre := fun hb => List.disjoint_of_nodup_append hnd hb List.mem_cons_self
    obtain ⟨harr₁, hk₁⟩ := arrived_pushBlock hD ha hS hb harr hk
    rw [List.append_assoc] at harr₁ hk₁
    exact arrived_pushBlocks hD ha rest (pre ++ [b]) _ (by rw [List.append_assoc]; exact hbs) harr₁ hk₁
      (waiting_pushBlock hw b)

theorem Settled.pushBlocks (hD : D.Settled) (ha : Arrivals D bs M) :
    Arrived D (D.cachedBlocks ++ bs) (Chain.pushBlocks bs D) ∧
      Kept (D.cachedBlocks ++ bs) (Chain.pushBlocks bs D) ∧ (Chain.pushBlocks bs D).Waiting :=
  arrived_pushBlocks hD ha bs [] D rfl (by rw [List.append_nil]; exact hD.arrived)
    (by rw [List.append_nil]; exact hD.kept) hD.waiting

end Arrivals

/-! ## What a run leaves -/

section Final

variable {D db : ForkDatabase} {S : List FullBlock}

theorem Kept.linked_of_parent (hk : Kept S db) (hw : db.Waiting) {b : FullBlock} (hb : b ∈ S) (hp : ∃ p ∈ db.index, p.blockId = b.previousId) : b.linkedItem ∈ db.index :=
  (hk b hb).resolve_right fun hc => let ⟨p, hp, hpid⟩ := hp; hw _ hc p hp hpid

theorem Reaches.linked (harr : Arrived D S db) (hk : Kept S db) (hw : db.Waiting) {b : FullBlock}
    (h : Reaches D S b) : b.linkedItem ∈ db.index := by
  induction h with
  | base hb hp =>
    obtain ⟨p, hp, hpid⟩ := hp
    exact hk.linked_of_parent hw hb ⟨p, harr.base p hp, hpid⟩
  | step hb _ hid _ ih => exact hk.linked_of_parent hw hb ⟨_, ih, hid⟩

theorem Reaches.parent (harr : Arrived D S db) (hk : Kept S db) (hw : db.Waiting) {b : FullBlock}
    (h : Reaches D S b) : ∃ p ∈ db.index, p.blockId = b.previousId := by
  cases h with
  | base _ hp =>
    obtain ⟨p, hp, hpid⟩ := hp
    exact ⟨p, harr.base p hp, hpid⟩
  | step _ _ hid hc => exact ⟨_, hc.linked harr hk hw, hid⟩

/-- A linked block whose previous block is linked reaches `D`: by induction on its number, each
previous block being an item of `D` or a linked block one lower. -/
theorem Arrived.reaches (harr : Arrived D S db) {b : FullBlock} (hb : b ∈ S)
    (hp : ∃ p ∈ db.index, p.blockId = b.previousId) : Reaches D S b := by
  induction hn : b.blockId.num using Nat.strong_induction_on generalizing b with
  | _ n ih =>
    obtain ⟨p, hp, hpid⟩ := hp
    rcases harr.index p hp with hpD | ⟨c, hc, rfl, hpc⟩
    · exact .base hb ⟨p, hpD, hpid⟩
    · have hlt : c.blockId.num < n := by
        have hsucc := b.num_succ
        have hcid : c.blockId.num = b.previousId.num := congrArg BlockId.num hpid
        omega
      exact .step hb hc hpid (ih _ hlt hc hpc rfl)

theorem Arrived.mem_index_iff (harr : Arrived D S db) (hk : Kept S db) (hw : db.Waiting) (x : ForkItem) :
    x ∈ db.index ↔ x ∈ D.index ∨ ∃ b ∈ S, x = b.linkedItem ∧ Reaches D S b := by
  constructor
  · intro hx
    rcases harr.index x hx with hx | ⟨b, hb, rfl, hp⟩
    · exact .inl hx
    · exact .inr ⟨b, hb, rfl, harr.reaches hb hp⟩
  · rintro (hx | ⟨b, -, rfl, hr⟩)
    · exact harr.base x hx
    · exact hr.linked harr hk hw

theorem Arrived.mem_cache_iff {bs : List FullBlock} {M : Nat} (hD : D.Settled) (ha : Arrivals D bs M)
    (hS : ∀ x ∈ S, x ∈ D.cachedBlocks ++ bs) (harr : Arrived D S db) (hk : Kept S db) (hw : db.Waiting)
    (x : ForkItem) : x ∈ db.unlinkedIndex ↔ ∃ b ∈ S, x = { fullBlock := b } ∧ ¬Reaches D S b := by
  constructor
  · intro hx
    obtain ⟨b, hb, rfl⟩ := harr.cache x hx
    exact ⟨b, hb, rfl, fun hr => let ⟨p, hp, hpid⟩ := hr.parent harr hk hw; hw _ hx p hp hpid⟩
  · rintro ⟨b, hb, rfl, hnr⟩
    refine (hk b hb).resolve_left fun hl => hnr ?_
    -- a linked block of the arrivals is not one of `D`'s items, so its previous block is linked
    rcases harr.index _ hl with hlD | ⟨c, hc, heq, hp⟩
    · exact absurd rfl (ha.unlinked_all hD b (hS b hb) _ hlD)
    · obtain rfl : b = c := congrArg ForkItem.fullBlock heq
      exact harr.reaches hc hp

end Final

theorem Headed.blockNum_head_eq {db db' : ForkDatabase} (h : db.Headed) (h' : db'.Headed)
    (hi : ∀ x, x ∈ db.index ↔ x ∈ db'.index) :
    db.head.map ForkItem.blockNum = db'.head.map ForkItem.blockNum := by
  obtain ⟨a, ha, hamem, hamax⟩ := h
  obtain ⟨b, hb, hbmem, hbmax⟩ := h'
  rw [ha, hb]
  exact congrArg some (Nat.le_antisymm (hbmax a ((hi a).1 hamem)) (hamax b ((hi b).2 hbmem)))

end ForkDatabase

open ForkDatabase

/-- Fork database linking does not depend on the order in which blocks arrive: from a settled
fork database, pushing blocks of distinct ids, none linked, each with a previous block, and no
older than `max_size` below the highest of them, in two orders gives the same linked items and the
same cache, up to the order of the lists, and heads of one number. The linked items are `D`'s and
the blocks, arrived or cached before, that reach them; the cache holds the others; the links stay
sound and the head is the highest linked block. -/
theorem push_order_irrelevant {D : ForkDatabase} {bs bs' : List FullBlock} {M : Nat} (hD : D.Settled)
    (ha : D.Arrivals bs M) (hperm : bs.Perm bs') :
    (pushBlocks bs D).index.Perm (pushBlocks bs' D).index ∧
      (pushBlocks bs D).unlinkedIndex.Perm (pushBlocks bs' D).unlinkedIndex ∧
      (pushBlocks bs D).head.map ForkItem.blockNum = (pushBlocks bs' D).head.map ForkItem.blockNum ∧
      (∀ x, x ∈ (pushBlocks bs D).index ↔
        x ∈ D.index ∨ ∃ b ∈ D.cachedBlocks ++ bs, x = b.linkedItem ∧ D.Reaches (D.cachedBlocks ++ bs) b) ∧
      (∀ x, x ∈ (pushBlocks bs D).unlinkedIndex ↔
        ∃ b ∈ D.cachedBlocks ++ bs, x = { fullBlock := b } ∧ ¬D.Reaches (D.cachedBlocks ++ bs) b) ∧
      (pushBlocks bs D).WellLinked ∧ (pushBlocks bs D).Headed := by
  have ha' := ha.perm hperm
  obtain ⟨harr, hk, hw⟩ := hD.pushBlocks ha
  obtain ⟨harr', hk', hw'⟩ := hD.pushBlocks ha'
  -- both runs are characterised over the same blocks, reaching through the same blocks
  have hK : ∀ b, b ∈ D.cachedBlocks ++ bs ↔ b ∈ D.cachedBlocks ++ bs' :=
    fun b => (hperm.append_left _).mem_iff
  have hR : ∀ b, D.Reaches (D.cachedBlocks ++ bs) b ↔ D.Reaches (D.cachedBlocks ++ bs') b :=
    fun b => ⟨Reaches.mono fun x hx => (hK x).1 hx, Reaches.mono fun x hx => (hK x).2 hx⟩
  have hidx : ∀ x, x ∈ (pushBlocks bs D).index ↔ x ∈ (pushBlocks bs' D).index := by
    intro x
    rw [harr.mem_index_iff hk hw, harr'.mem_index_iff hk' hw']
    simp only [hK, hR]
  have hcache : ∀ x, x ∈ (pushBlocks bs D).unlinkedIndex ↔ x ∈ (pushBlocks bs' D).unlinkedIndex := by
    intro x
    rw [harr.mem_cache_iff hD ha (fun _ h => h) hk hw, harr'.mem_cache_iff hD ha' (fun _ h => h) hk' hw']
    simp only [hK, hR]
  have hwl := runForkOps_wellLinked (bs.map ForkOp.pushBlock) hD.wellLinked
  have hwl' := runForkOps_wellLinked (bs'.map ForkOp.pushBlock) hD.wellLinked
  refine ⟨(List.perm_ext_iff_of_nodup (hwl.nodup.of_map _) (hwl'.nodup.of_map _)).2 hidx,
    (List.perm_ext_iff_of_nodup (harr.nodup_cache.of_map _) (harr'.nodup_cache.of_map _)).2 hcache,
    harr.headed.blockNum_head_eq harr'.headed hidx, harr.mem_index_iff hk hw,
    harr.mem_cache_iff hD ha (fun _ h => h) hk hw, hwl, harr.headed⟩

theorem forkSample_settled : forkSample.Settled :=
  ⟨reachable_forkSample.linked.wellLinked, reachable_forkSample.headed, by unfold Waiting; decide,
    by decide, by decide, by decide, by decide⟩

theorem push_order_irrelevant_sample :
    (pushBlocks [⟨⟨4, 40⟩, ⟨3, 30⟩, rfl⟩, ⟨⟨3, 30⟩, ⟨2, 21⟩, rfl⟩] forkSample).index.Perm
        (pushBlocks [⟨⟨3, 30⟩, ⟨2, 21⟩, rfl⟩, ⟨⟨4, 40⟩, ⟨3, 30⟩, rfl⟩] forkSample).index ∧
      (pushBlocks [⟨⟨4, 40⟩, ⟨3, 30⟩, rfl⟩, ⟨⟨3, 30⟩, ⟨2, 21⟩, rfl⟩] forkSample).unlinkedIndex.Perm
        (pushBlocks [⟨⟨3, 30⟩, ⟨2, 21⟩, rfl⟩, ⟨⟨4, 40⟩, ⟨3, 30⟩, rfl⟩] forkSample).unlinkedIndex ∧
      (pushBlocks [⟨⟨4, 40⟩, ⟨3, 30⟩, rfl⟩, ⟨⟨3, 30⟩, ⟨2, 21⟩, rfl⟩] forkSample).head.map ForkItem.blockNum =
        (pushBlocks [⟨⟨3, 30⟩, ⟨2, 21⟩, rfl⟩, ⟨⟨4, 40⟩, ⟨3, 30⟩, rfl⟩] forkSample).head.map ForkItem.blockNum := by
  obtain ⟨hi, hc, hh, -⟩ := push_order_irrelevant forkSample_settled
    (show forkSample.Arrivals [⟨⟨4, 40⟩, ⟨3, 30⟩, rfl⟩, ⟨⟨3, 30⟩, ⟨2, 21⟩, rfl⟩] 4 from
      ⟨by decide, by decide, by decide, by decide, by decide, by decide⟩) (List.Perm.swap _ _ _)
  exact ⟨hi, hc, hh⟩

/-- A block whose previous id is `block_id_type()` is linked by `_push_block` although no block of
the database is its previous block: its chain of previous ids reaches no item. -/
theorem linked_without_previous_block :
    (⟨⟨⟨1, 99⟩, BlockId.zero, rfl⟩, none, false⟩ : ForkItem) ∈
        (pushBlocks [⟨⟨1, 99⟩, BlockId.zero, rfl⟩] forkSample).index ∧
      ∀ p ∈ forkSample.index, p.blockId ≠ BlockId.zero :=
  ⟨by decide, by decide⟩

end Chain
end HiveChain
