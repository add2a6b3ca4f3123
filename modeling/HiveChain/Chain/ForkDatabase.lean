import HiveChain.Lib.EState

/-!
# HiveChain.Chain.ForkDatabase

`fork_database` (`chain/fork_database.cpp`): the recent blocks, each linked to the block before
it, with a cache of blocks whose previous block is not known yet.

* A `block_id_type` is its block number, in its first four bytes, and the rest of the header's
  hash (`full_block_type::construct_block_id`). A block's number is one more than its previous
  block's (`block_header::block_num`), which `FullBlock` carries as a field. Numbers are taken
  below `2 ^ 32 - 1`, where `num_from_id( previous ) + 1` does not wrap.
* An item's `prev` weak pointer is the id of the item it points to; `prev.lock()` finds that
  item in `_index`.
* `_index` and `_unlinked_index` are lists in insertion order. A `find` on their hashed indices
  returns the first match, standing for the element the hash order yields.
* The recursion of `_push_block` through `_push_next` runs on fuel: each level of it has erased
  one more block from `_unlinked_index`, so its size bounds the depth.
* The loops of `fetch_branch_from` each run for at most the number of the block they start
  from, which is what they take when every `prev` is the block before; past that the model
  throws.
* Errors are `fc::assert_exception`s, which `_push_next` swallows, and the
  `unlinkable_block_exception`, which it does not.
* The walks down the main branch (`walk_main_branch_to_num_unlocked`, the loop of
  `fetch_block_range_on_main_branch_by_number`) run on the head's number, or one more, as fuel:
  each step goes to a block of a lower number.
* `set_max_size` erases from the front of the `block_num` index while the least number is at
  most the threshold; the model takes that least element with `List.argmin`, on the length of
  the index as fuel. `last_desired_block_num` is `uint32_t` arithmetic, kept modulo `2 ^ 32`.
-/

namespace HiveChain
namespace Chain

open EState

/-- `block_id_type`: the block number and the rest of the hash. -/
structure BlockId where
  num : Nat
  hash : Nat
deriving DecidableEq, Repr

/-- `block_id_type()`. -/
def BlockId.zero : BlockId := ⟨0, 0⟩

/-- What the fork database reads of a `full_block_type`: its id and its previous block's id. -/
structure FullBlock where
  blockId : BlockId
  previousId : BlockId
  /-- the id of a block carries the number after its previous block's -/
  num_succ : blockId.num = previousId.num + 1
deriving DecidableEq

/-- `fork_item`: the block, the item `prev` points to, and the `invalid` flag. -/
structure ForkItem where
  fullBlock : FullBlock
  prev : Option BlockId := none
  invalid : Bool := false
deriving DecidableEq

namespace ForkItem

/-- `fork_item::get_block_id`. -/
def blockId (item : ForkItem) : BlockId := item.fullBlock.blockId

/-- `fork_item::previous_id`. -/
def previousId (item : ForkItem) : BlockId := item.fullBlock.previousId

/-- `fork_item::get_block_num`. -/
def blockNum (item : ForkItem) : Nat := item.blockId.num

end ForkItem

/-- The exceptions of the fork database. -/
inductive ForkError where
  /-- an `fc::assert_exception`, with its message -/
  | assert (msg : String)
  | unlinkable
deriving DecidableEq, Repr

/-- `fork_database`. -/
structure ForkDatabase where
  index : List ForkItem
  unlinkedIndex : List ForkItem
  head : Option ForkItem
  maxSize : Nat

namespace ForkDatabase

/-- `_index.get< block_id >().find( id )`. -/
def find (db : ForkDatabase) (id : BlockId) : Option ForkItem := db.index.find? fun x => x.blockId = id

/-- `prev.lock()`. -/
def prevItem (db : ForkDatabase) (item : ForkItem) : Option ForkItem := item.prev.bind db.find

/-- `_index.insert( item )`: nothing when an item of that id is there. -/
def insert (db : ForkDatabase) (item : ForkItem) : ForkDatabase :=
  if db.index.any fun x => x.blockId = item.blockId then db else { db with index := db.index ++ [item] }

/-- `_unlinked_index.insert( item )`. -/
def insertUnlinked (db : ForkDatabase) (item : ForkItem) : ForkDatabase :=
  if db.unlinkedIndex.any fun x => x.blockId = item.blockId then db
  else { db with unlinkedIndex := db.unlinkedIndex ++ [item] }

/-- `fork_database::start_block`. -/
def startBlock (db : ForkDatabase) (fullBlock : FullBlock) : ForkDatabase :=
  let item : ForkItem := { fullBlock }
  { db.insert item with head := some item }

end ForkDatabase

/-- The fork database's programs: they throw without undoing what they changed. -/
abbrev ForkM := EStateM ForkError ForkDatabase

namespace ForkDatabase

/-- The checks and the link of `_push_block`: the age check, then, when the database has a head
and the block a previous block, the item pointed at that block. -/
def linkItem (db : ForkDatabase) (item : ForkItem) : Except ForkError ForkItem := do
  if let some head := db.head then
    unless item.blockNum > head.blockNum - db.maxSize do
      throw (.assert "attempting to push a block that is too old")
  if db.head.isSome ∧ item.previousId ≠ BlockId.zero then
    match db.find item.previousId with
    | none => throw .unlinkable
    | some p =>
      unless !p.invalid do throw (.assert "!(*itr)->invalid")
      pure { item with prev := some p.blockId }
  else pure item

/-- `_index.insert( item )`, then `item` the head when there is none or it is higher. -/
def add (db : ForkDatabase) (item : ForkItem) : ForkDatabase :=
  let db := db.insert item
  if db.head.all fun h => h.blockNum < item.blockNum then { db with head := some item } else db

end ForkDatabase

/-- `_push_block` up to its `_push_next`. It returns the item as linked. -/
def linkBlock (item : ForkItem) : ForkM ForkItem := do
  let item ← fromExcept ((← get).linkItem item)
  modify fun db => db.add item
  pure item

/-- `_push_next( new_item )`: each cached block whose previous block is `new_item` is taken out
of the cache and pushed, its assertion failures swallowed. -/
def pushNext : Nat → ForkItem → ForkM Unit
  | 0, _ => pure ()
  | fuel + 1, newItem => do
    let db ← get
    match db.unlinkedIndex.find? fun x => x.previousId = newItem.blockId with
    | none => pure ()
    | some tmp =>
      modify fun db => { db with unlinkedIndex := db.unlinkedIndex.erase tmp }
      tryCatch (do let tmp ← linkBlock tmp; pushNext fuel tmp) fun
        | .assert _ => pure ()
        | e => throw e
      pushNext fuel newItem

/-- `_push_block( item )`. -/
def pushBlockAux (fuel : Nat) (item : ForkItem) : ForkM Unit := do
  let item ← linkBlock item
  pushNext fuel item

/-- `fork_database::push_block`: a block that does not link is cached, and the exception
rethrown. -/
def pushBlock (fullBlock : FullBlock) : ForkM (Option ForkItem) := do
  let item : ForkItem := { fullBlock }
  let db ← get
  tryCatch (pushBlockAux (db.unlinkedIndex.length + 1) item) fun
    | .unlinkable => do
      modify fun db => db.insertUnlinked item
      throw .unlinkable
    | e => throw e
  return (← get).head

namespace ForkDatabase

/-- A loop of `fetch_branch_from` that walks one branch down:
`while( cond( x ) ) { out.push_back( x ); x = x->prev.lock(); FC_ASSERT( x ); }`. -/
def walkWhile (db : ForkDatabase) (cond : ForkItem → Bool) (msg : String) :
    Nat → List ForkItem → ForkItem → Except String (List ForkItem × ForkItem)
  | 0, out, x => if cond x then throw msg else pure (out, x)
  | fuel + 1, out, x =>
    if cond x then
      match db.prevItem x with
      | none => throw msg
      | some y => db.walkWhile cond msg fuel (out ++ [x]) y
    else pure (out, x)

/-- The third loop of `fetch_branch_from`: both branches walk down until their previous ids
agree. -/
def walkBoth (db : ForkDatabase) :
    Nat → List ForkItem → List ForkItem → ForkItem → ForkItem →
      Except String ((List ForkItem × List ForkItem) × ForkItem × ForkItem)
  | 0, out₁, out₂, x, y =>
    if x.previousId ≠ y.previousId then throw "first_branch" else pure ((out₁, out₂), x, y)
  | fuel + 1, out₁, out₂, x, y =>
    if x.previousId ≠ y.previousId then
      match db.prevItem x with
      | none => throw "first_branch"
      | some x' =>
        match db.prevItem y with
        | none => throw "second_branch"
        | some y' => db.walkBoth fuel (out₁ ++ [x]) (out₂ ++ [y]) x' y'
    else pure ((out₁, out₂), x, y)

/-- `fork_database::fetch_branch_from( first, second )`: the two branches from `first` and
`second` down to their most recent common ancestor. -/
def fetchBranchFrom (db : ForkDatabase) (first second : BlockId) :
    Except String (List ForkItem × List ForkItem) := do
  let some firstBranch := db.find first | throw "first_branch_itr != _index.get<block_id>().end()"
  let some secondBranch := db.find second | throw "second_branch_itr != _index.get<block_id>().end()"
  let (out₁, firstBranch) ←
    db.walkWhile (fun x => secondBranch.blockNum < x.blockNum) "first_branch" firstBranch.blockNum [] firstBranch
  let (out₂, secondBranch) ←
    db.walkWhile (fun y => firstBranch.blockNum < y.blockNum) "second_branch" secondBranch.blockNum [] secondBranch
  let ((out₁, out₂), firstBranch, secondBranch) ←
    db.walkBoth firstBranch.blockNum out₁ out₂ firstBranch secondBranch
  -- `first_branch && second_branch` holds here: every step asserted it
  if firstBranch.blockId ≠ secondBranch.blockId then
    pure (out₁ ++ [firstBranch], out₂ ++ [secondBranch])
  else pure (out₁, out₂)

/-! ## The main branch -/

/-- The loop of `walk_main_branch_to_num`: down the `prev` links while the block is above
`blockNum`. -/
def walkDown (db : ForkDatabase) (blockNum : Nat) : Nat → Option ForkItem → Option ForkItem
  | _, none => none
  | 0, some x => if x.blockNum > blockNum then none else some x
  | fuel + 1, some x => if x.blockNum > blockNum then db.walkDown blockNum fuel (db.prevItem x) else some x

/-- `fork_database::walk_main_branch_to_num_unlocked`: the block of the head's branch at `blockNum`.
The source reads `_head` without testing it; the model returns null there. -/
def walkMainBranchToNum (db : ForkDatabase) (blockNum : Nat) : Option ForkItem :=
  match db.head with
  | none => none
  | some head => if blockNum > head.blockNum then none else db.walkDown blockNum head.blockNum (some head)

/-- `fork_database::fetch_block_by_number_unlocked`: the linked blocks of a number. -/
def fetchBlockByNumber (db : ForkDatabase) (num : Nat) : List ForkItem :=
  db.index.filter fun x => x.blockNum = num

/-- `fork_database::fetch_block_on_main_branch_by_number_unlocked`: the only block of that number
when there is one, else the walk down the head's branch. -/
def fetchBlockOnMainBranchByNumber (db : ForkDatabase) (blockNum : Nat) : Option ForkItem :=
  match db.head with
  | none => none
  | some head =>
    if blockNum > head.blockNum then none
    else
      match db.fetchBlockByNumber blockNum with
      | [] => none
      | [x] => some x
      | _ => db.walkMainBranchToNum blockNum

/-- The last loop of `fetch_block_range_on_main_branch_by_number`: the blocks from `item` down the
`prev` links while at or above `first`, in the order met. -/
def collectDown (db : ForkDatabase) (first : Nat) : Nat → Option ForkItem → List ForkItem
  | 0, _ => []
  | _ + 1, none => []
  | fuel + 1, some x => if first ≤ x.blockNum then x :: db.collectDown first fuel (db.prevItem x) else []

/-- `fork_database::fetch_block_range_on_main_branch_by_number`: the blocks of the head's branch
from `firstBlockNum` on, at most `count` of them, in increasing order. `first_block_num + count - 1`
is `uint32_t` arithmetic. -/
def fetchBlockRangeOnMainBranchByNumber (db : ForkDatabase) (firstBlockNum count : Nat) : List ForkItem :=
  match db.head with
  | none => []
  | some head =>
    if head.blockNum < firstBlockNum then []
    else
      let lastDesiredBlockNum := (firstBlockNum + count + (2 ^ 32 - 1)) % 2 ^ 32
      let lastBlockNum := min lastDesiredBlockNum head.blockNum
      match db.fetchBlockByNumber lastBlockNum with
      | [] => []
      | [x] => (db.collectDown firstBlockNum (lastBlockNum + 1) (some x)).reverse
      | _ => (db.collectDown firstBlockNum (lastBlockNum + 1) (db.walkMainBranchToNum lastBlockNum)).reverse

/-! ## Pruning, popping and removing -/

/-- A loop of `set_max_size` over one index in block-number order: while its lowest block is at
or below `threshold`, erase it. -/
def eraseUpTo (threshold : Nat) : Nat → List ForkItem → List ForkItem
  | 0, items => items
  | fuel + 1, items =>
    match items.argmin ForkItem.blockNum with
    | none => items
    | some x => if x.blockNum ≤ threshold then eraseUpTo threshold fuel (items.erase x) else items

/-- `fork_database::set_max_size( s )`: both indices lose the blocks at or below
`std::max( 0, head - s )`. -/
def setMaxSize (db : ForkDatabase) (s : Nat) : ForkDatabase :=
  match db.head with
  | none => { db with maxSize := s }
  | some head =>
    { db with
      maxSize := s
      index := eraseUpTo (head.blockNum - s) db.index.length db.index
      unlinkedIndex := eraseUpTo (head.blockNum - s) db.unlinkedIndex.length db.unlinkedIndex }

/-- `fork_database::remove( id )`: the head falls back to its previous block when it is the block
removed. -/
def remove (db : ForkDatabase) (id : BlockId) : ForkDatabase :=
  let head := if db.head.any fun h => h.blockId = id then db.head.bind db.prevItem else db.head
  { db with head, index := db.index.filter fun x => x.blockId ≠ id }

/-- `fork_database::set_head( fetch_block( id, true ) )`: the head becomes the linked block of
that id. -/
def setHead (db : ForkDatabase) (id : BlockId) : ForkDatabase := { db with head := db.find id }

/-- `fork_database::reset`: no head and no linked block; the cache stays. -/
def reset (db : ForkDatabase) : ForkDatabase := { db with head := none, index := [] }

end ForkDatabase

/-- `fork_database::pop_block`: the head falls back to its previous block. -/
def popBlock : ForkM Unit := do
  let db ← get
  let some head := db.head | throw (.assert "cannot pop an empty fork database")
  let some prev := db.prevItem head | throw (.assert "popping head block would leave fork DB empty")
  set { db with head := some prev }

end Chain
end HiveChain
