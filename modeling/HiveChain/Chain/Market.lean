import Mathlib.Algebra.BigOperators.Group.Finset.Basic
import HiveChain.Lib.EState
import HiveChain.Lib.FinNumerals

/-!
# HiveChain.Chain.Market

The internal HIVE:HBD market (`database::apply_order`, `match`, `fill_order`, `cancel_order`,
`clear_expired_orders` and the `limit_order_*` evaluators).

* Amounts are `share_type` values as integers; the products and quotients of `operator*` and of
  the price comparisons are exact, as their `uint128` arithmetic is for amounts below
  `HIVE_MAX_SATOSHIS`. The bound of `uint128_to_uint64` is kept.
* The limit order index is a list in id order; `by_price` and `by_expiration` are the sorts
  `apply_order` and `clear_expired_orders` walk.
* `modify_balance` pays the interest on liquid HBD before `HIVE_HARDFORK_1_25` (`hbdInterest`).
* The functions run in `EStateM String`, a failed assert as the error; an operation that throws
  is undone by its transaction (`MarketOp.run`).
* A constant of the source keeps its macro's name, in camel case (`HIVE_100_PERCENT` is
  `hive100Percent`).
-/

namespace HiveChain
namespace Chain

open EState

/-- The two assets of the market. -/
inductive Symbol where
  | hive
  | hbd
deriving DecidableEq, Repr

structure Asset where
  amount : Int
  symbol : Symbol
deriving DecidableEq, Repr

/-- `base` is what an order sells, `quote` what it asks for them. -/
structure Price where
  base : Asset
  quote : Asset
deriving DecidableEq, Repr

def hiveMaxSatoshis : Int := 4611686018427387903

def hive100Percent : Nat := 10000

def hiveSecondsPerYear : Nat := 60 * 60 * 24 * 365

/-- `HIVE_HBD_INTEREST_COMPOUND_INTERVAL_SEC`. -/
def hbdInterestCompoundIntervalSec : Nat := 60 * 60 * 24 * 30

/-- `HIVE_MAX_LIMIT_ORDER_EXPIRATION`. -/
def maxLimitOrderExpiration : Nat := 60 * 60 * 24 * 28

/-- `HIVE_HARDFORK_0_20_TIME`. -/
def hardfork020Time : Nat := 1537887600

namespace Price

/-- `operator~`. -/
def inv (p : Price) : Price := ⟨p.quote, p.base⟩

/-- `price::max`: the highest price of the market of `p`. -/
def max (p : Price) : Price := ⟨⟨hiveMaxSatoshis, p.base.symbol⟩, ⟨1, p.quote.symbol⟩⟩

/-- `price::validate`. -/
def Valid (p : Price) : Prop :=
  0 < p.base.amount ∧ 0 < p.quote.amount ∧ p.base.symbol ≠ p.quote.symbol

instance (p : Price) : Decidable p.Valid := inferInstanceAs (Decidable (_ ∧ _ ∧ _))

/-- Two prices of one market: the same base and quote symbols, which the source compares
first. -/
def SameMarket (a b : Price) : Prop :=
  a.base.symbol = b.base.symbol ∧ a.quote.symbol = b.quote.symbol

instance (a b : Price) : Decidable (a.SameMarket b) := inferInstanceAs (Decidable (_ ∧ _))

/-- `a <= b` between prices of one market, by the two `uint128` products. -/
def Le (a b : Price) : Prop := a.base.amount * b.quote.amount ≤ a.quote.amount * b.base.amount

instance (a b : Price) : Decidable (a.Le b) := inferInstanceAs (Decidable (_ ≤ _))

end Price

/-- `operator*( asset, price )`: the asset converted at the price, rounded toward zero. -/
def Asset.mulPrice (a : Asset) (p : Price) : Except String Asset :=
  let result := a.amount.natAbs
  let signed := fun (r : Nat) => if a.amount < 0 then -(r : Int) else r
  if a.symbol = p.base.symbol then
    let r := result * p.quote.amount.toNat / p.base.amount.toNat
    if r ≤ 2 ^ 64 - 1 then .ok ⟨signed r, p.quote.symbol⟩ else .error ""
  else if a.symbol = p.quote.symbol then
    let r := result * p.base.amount.toNat / p.quote.amount.toNat
    if r ≤ 2 ^ 64 - 1 then .ok ⟨signed r, p.base.symbol⟩ else .error ""
  else .error "invalid ${asset} * ${price}"

/-- `limit_order_object`; `id` is its chainbase id. -/
structure LimitOrder (Acc : Type) where
  id : Nat
  created : Nat
  expiration : Nat
  seller : Acc
  orderid : Nat
  forSale : Int
  sellPrice : Price

namespace LimitOrder

variable {Acc : Type}

def amountForSale (o : LimitOrder Acc) : Asset := ⟨o.forSale, o.sellPrice.base.symbol⟩

def amountToReceive (o : LimitOrder Acc) : Except String Asset :=
  o.amountForSale.mulPrice o.sellPrice

end LimitOrder

/-- What the market reads and writes: the liquid balances with the HBD interest fields of the
accounts, `current_hbd_supply` and `hbd_interest_rate`, the limit order index and its next id.
`headBlockIdWord` is `head_block_id()._hash[4]`. -/
structure MarketState (Acc : Type) where
  hardfork : Nat
  headBlockTime : Nat
  headBlockIdWord : Nat
  hbdInterestRate : Nat
  currentHbdSupply : Int
  balance : Acc → Int
  hbdBalance : Acc → Int
  hbdSeconds : Acc → Nat
  hbdSecondsLastUpdate : Acc → Nat
  hbdLastInterestPayment : Acc → Nat
  orders : List (LimitOrder Acc)
  nextId : Nat

variable {Acc : Type} [DecidableEq Acc]

namespace MarketState

def hasHardfork (s : MarketState Acc) (n : Nat) : Bool := decide (n ≤ s.hardfork)

/-- `get_balance`. -/
def getBalance (s : MarketState Acc) (a : Acc) : Symbol → Int
  | .hive => s.balance a
  | .hbd => s.hbdBalance a

end MarketState

/-- The part of `modify_balance` that, before `HIVE_HARDFORK_1_25`, brings the account's
`hbd_seconds` up to date and pays the interest on its liquid HBD once a compounding interval
has passed, adding it to `current_hbd_supply`. -/
def hbdInterest (s : MarketState Acc) (a : Acc) : MarketState Acc :=
  if s.hardfork < 25 ∧ s.hbdSecondsLastUpdate a ≠ s.headBlockTime then
    let seconds := s.hbdSeconds a +
      (s.hbdBalance a).toNat * (s.headBlockTime - s.hbdSecondsLastUpdate a)
    if 0 < seconds ∧ hbdInterestCompoundIntervalSec < s.headBlockTime - s.hbdLastInterestPayment a
    then
      let interest : Int := seconds / hiveSecondsPerYear * s.hbdInterestRate / hive100Percent
      { s with
        hbdBalance := Function.update s.hbdBalance a (s.hbdBalance a + interest),
        hbdSeconds := Function.update s.hbdSeconds a 0,
        hbdSecondsLastUpdate := Function.update s.hbdSecondsLastUpdate a s.headBlockTime,
        hbdLastInterestPayment := Function.update s.hbdLastInterestPayment a s.headBlockTime,
        currentHbdSupply := s.currentHbdSupply + interest }
    else
      { s with
        hbdSeconds := Function.update s.hbdSeconds a seconds,
        hbdSecondsLastUpdate := Function.update s.hbdSecondsLastUpdate a s.headBlockTime }
  else s

abbrev MarketM (Acc : Type) := EStateM String (MarketState Acc)

/-- `modify_balance` for the liquid balances. -/
def modifyBalance (a : Acc) (delta : Asset) (checkBalance : Bool) : MarketM Acc Unit := do
  match delta.symbol with
  | .hive =>
    modify fun s => { s with balance := Function.update s.balance a (s.balance a + delta.amount) }
    let s ← get
    if checkBalance ∧ s.balance a < 0 then throw "Insufficient HIVE funds"
  | .hbd =>
    modify fun s => hbdInterest s a
    modify fun s =>
      { s with hbdBalance := Function.update s.hbdBalance a (s.hbdBalance a + delta.amount) }
    let s ← get
    if checkBalance ∧ s.hbdBalance a < 0 then throw "Insufficient HBD funds"

/-- `adjust_balance`. -/
def adjustBalance (a : Acc) (delta : Asset) : MarketM Acc Unit := do
  let s ← get
  if delta.amount < 0 ∧ s.getBalance a delta.symbol < -delta.amount then
    throw "Account ${acc} does not have sufficient funds for balance adjustment. Required: ${r}, Available: ${a}"
  modifyBalance a delta (s.hasHardfork 20)

/-- `get< limit_order_object >( id )`. -/
def findOrder (id : Nat) : MarketM Acc (LimitOrder Acc) := do
  let s ← get
  match s.orders.find? (·.id = id) with
  | some o => pure o
  | none => throw "unknown key: ${key} of type: ${kt} at multiindex lookup: ${multiindex}"

def removeOrder (id : Nat) : MarketM Acc Unit :=
  modify fun s => { s with orders := s.orders.filter (·.id ≠ id) }

def modifyOrder (id : Nat) (f : LimitOrder Acc → LimitOrder Acc) : MarketM Acc Unit :=
  modify fun s => { s with orders := s.orders.map fun o => if o.id = id then f o else o }

/-- `cancel_order`: what is still for sale goes back to the seller. -/
def cancelOrder (id : Nat) : MarketM Acc Unit := do
  let o ← findOrder id
  adjustBalance o.seller o.amountForSale
  removeOrder id

/-- `fill_order`: the seller gets `receives`, the order gives `pays`; it is gone when it paid
all it had for sale, or when what is left would receive nothing (refunded by `cancel_order`). -/
def fillOrder (id : Nat) (pays receives : Asset) : MarketM Acc Bool := do
  let o ← findOrder id
  if o.amountForSale.symbol ≠ pays.symbol ∨ pays.symbol = receives.symbol then
    throw "error filling orders: ${order} ${pays} ${receives}"
  adjustBalance o.seller receives
  if pays = o.amountForSale then
    removeOrder id
    pure true
  else
    let s ← get
    if s.hasHardfork 20 ∧ ¬pays.amount < o.forSale then
      throw "error filling orders: ${order} ${pays} ${receives}"
    modifyOrder id fun b => { b with forSale := b.forSale - pays.amount }
    let o ← findOrder id
    let r ← fromExcept o.amountToReceive
    if r.amount = 0 then
      cancelOrder id
      pure true
    else pure false

/-- The middle of `database::match`: what the old order and the new order receive. The new
order sells all it has when that is worth at most what the old order sells; otherwise the old
order sells all it has. -/
def matchAmounts (newForSale oldForSale : Asset) (matchPrice : Price) :
    Except String (Asset × Asset) := do
  let oldValue ← oldForSale.mulPrice matchPrice
  if newForSale.symbol ≠ oldValue.symbol then throw ""
  if newForSale.amount ≤ oldValue.amount then
    let newReceives ← newForSale.mulPrice matchPrice
    pure (newReceives, newForSale)
  else
    pure (oldForSale, oldValue)

/-- `database::match`: the two orders exchange at `matchPrice`, the old order's price. The
result has bit `1` when the new order is gone and bit `2` when the old one is. -/
def matchOrders (newId oldId : Nat) (matchPrice : Price) : MarketM Acc Nat := do
  let newOrder ← findOrder newId
  let oldOrder ← findOrder oldId
  let s ← get
  if s.hasHardfork 20 ∧ ¬(newOrder.sellPrice.quote.symbol = oldOrder.sellPrice.base.symbol ∧
      newOrder.sellPrice.base.symbol = oldOrder.sellPrice.quote.symbol ∧
      0 < newOrder.forSale ∧ 0 < oldOrder.forSale ∧
      matchPrice.quote.symbol = newOrder.sellPrice.base.symbol ∧
      matchPrice.base.symbol = oldOrder.sellPrice.base.symbol) then
    throw "error matching orders: ${new_order} ${old_order} ${match_price}"
  let (newReceives, oldReceives) ←
    fromExcept (matchAmounts newOrder.amountForSale oldOrder.amountForSale matchPrice)
  let oldPays := newReceives
  let newPays := oldReceives
  if s.hasHardfork 20 ∧
      ¬(newPays = newOrder.amountForSale ∨ oldPays = oldOrder.amountForSale) then
    throw "error matching orders: ${new_order} ${old_order} ${match_price}"
  let newFilled ← fillOrder newId newPays newReceives
  let oldFilled ← fillOrder oldId oldPays oldReceives
  let result := (if newFilled then 1 else 0) + (if oldFilled then 2 else 0)
  if s.hasHardfork 20 ∧ result = 0 then
    throw "error matching orders: ${new_order} ${old_order} ${match_price}"
  pure result

/-- The `by_price` order: the higher price first, the older order first at equal prices. -/
def byPrice (o₁ o₂ : LimitOrder Acc) : Bool :=
  decide (o₂.sellPrice.Le o₁.sellPrice ∧ (o₁.sellPrice.Le o₂.sellPrice → o₁.id ≤ o₂.id))

/-- The orders `apply_order` walks for a new order with price `p`: from
`lower_bound( (~p).max() )` to `upper_bound( ~p )` in `by_price`, the orders of the other side
whose price is at least `~p` (and at most its `max()`). -/
def matchCandidates (orders : List (LimitOrder Acc)) (p : Price) : List (LimitOrder Acc) :=
  (orders.filter fun o =>
    decide (o.sellPrice.SameMarket p.inv ∧ p.inv.Le o.sellPrice ∧ o.sellPrice.Le p.inv.max)).mergeSort
    byPrice

/-- The loop of `apply_order`: it stops once the new order is gone. -/
def applyOrderLoop (newId : Nat) : List (LimitOrder Acc) → MarketM Acc Unit
  | [] => pure ()
  | old :: rest => do
    let result ← matchOrders newId old.id old.sellPrice
    if result % 2 = 1 then pure () else applyOrderLoop newId rest

/-- `apply_order`: whether the new order was filled. -/
def applyOrder (newId : Nat) : MarketM Acc Bool := do
  let newOrder ← findOrder newId
  let s ← get
  applyOrderLoop newId (matchCandidates s.orders newOrder.sellPrice)
  let s ← get
  pure (s.orders.find? (·.id = newId)).isNone

/-- The tail of `limit_order_create_evaluator` and `limit_order_create2_evaluator`: the amount
leaves the owner's balance for a new order, which is matched at once. -/
def placeOrder (owner : Acc) (orderid : Nat) (amountToSell : Asset) (sellPrice : Price)
    (expiration : Nat) (fillOrKill : Bool) : MarketM Acc Unit := do
  adjustBalance owner ⟨-amountToSell.amount, amountToSell.symbol⟩
  let s ← get
  if amountToSell.symbol ≠ sellPrice.base.symbol then throw ""
  if s.orders.any fun o => o.seller = owner ∧ o.orderid = orderid then
    throw "could not insert object, most likely a uniqueness constraint was violated"
  let order : LimitOrder Acc :=
    ⟨s.nextId, s.headBlockTime, expiration, owner, orderid, amountToSell.amount, sellPrice⟩
  modify fun s => { s with orders := s.orders ++ [order], nextId := s.nextId + 1 }
  let filled ← applyOrder order.id
  if fillOrKill ∧ ¬filled then throw "Cancelling order because it was not filled."

/-- `limit_order_create_evaluator`; before `HIVE_HARDFORK_0_20__1449` the expiration is cut at
a time past the hardfork that depends on the block id. -/
def limitOrderCreate (owner : Acc) (orderid : Nat) (amountToSell minToReceive : Asset)
    (fillOrKill : Bool) (expiration : Nat) : MarketM Acc Unit := do
  let s ← get
  if expiration ≤ s.headBlockTime then throw "Limit order has to expire after head block time."
  let expiration ← if s.hasHardfork 20 then do
      if s.headBlockTime + maxLimitOrderExpiration < expiration then
        throw "Limit Order Expiration must not be more than 28 days in the future"
      pure expiration
    else
      pure (min expiration (hardfork020Time + maxLimitOrderExpiration + s.headBlockIdWord % 86400))
  placeOrder owner orderid amountToSell ⟨amountToSell, minToReceive⟩ expiration fillOrKill

/-- `limit_order_create2_evaluator`. -/
def limitOrderCreate2 (owner : Acc) (orderid : Nat) (amountToSell : Asset) (exchangeRate : Price)
    (fillOrKill : Bool) (expiration : Nat) : MarketM Acc Unit := do
  let s ← get
  if expiration ≤ s.headBlockTime then throw "Limit order has to expire after head block time."
  let expiration ← if s.hasHardfork 20 then do
      if s.headBlockTime + maxLimitOrderExpiration < expiration then
        throw "Limit Order Expiration must not be more than 28 days in the future"
      pure expiration
    else
      pure (min expiration (hardfork020Time + maxLimitOrderExpiration))
  placeOrder owner orderid amountToSell exchangeRate expiration fillOrKill

/-- `limit_order_cancel_evaluator`, through `get_limit_order` (which keeps the low 16 bits of
the order id before `HIVE_HARDFORK_0_6__127`). -/
def limitOrderCancel (owner : Acc) (orderid : Nat) : MarketM Acc Unit := do
  let s ← get
  let orderid := if s.hasHardfork 6 then orderid else orderid % 65536
  match s.orders.find? (fun o => o.seller = owner ∧ o.orderid = orderid) with
  | some o => cancelOrder o.id
  | none => throw "unknown key: ${key} of type: ${kt} at multiindex lookup: ${multiindex}"

/-- `clear_expired_orders`: every order past its expiration is cancelled, in `by_expiration`
order. -/
def clearExpiredOrders : MarketM Acc Unit := do
  let s ← get
  let expired := (s.orders.filter fun o => o.expiration < s.headBlockTime).mergeSort
    fun o₁ o₂ => decide (o₁.expiration < o₂.expiration ∨ (o₁.expiration = o₂.expiration ∧ o₁.id ≤ o₂.id))
  expired.forM fun o => cancelOrder o.id

/-- The operations on the market, and the block step that clears expired orders. -/
inductive MarketOp (Acc : Type) where
  | limitOrderCreate (owner : Acc) (orderid : Nat) (amountToSell minToReceive : Asset)
      (fillOrKill : Bool) (expiration : Nat)
  | limitOrderCreate2 (owner : Acc) (orderid : Nat) (amountToSell : Asset) (exchangeRate : Price)
      (fillOrKill : Bool) (expiration : Nat)
  | limitOrderCancel (owner : Acc) (orderid : Nat)
  | clearExpiredOrders

/-- `validate` of the operation, then its evaluator. -/
def MarketOp.apply : MarketOp Acc → MarketM Acc Unit
  | .limitOrderCreate owner orderid amountToSell minToReceive fillOrKill expiration => do
    if amountToSell.symbol = minToReceive.symbol then
      throw "Limit order must be for the HIVE:HBD or SMT:(HIVE/HBD) market"
    unless (Price.mk amountToSell minToReceive).Valid do throw ""
    Chain.limitOrderCreate owner orderid amountToSell minToReceive fillOrKill expiration
  | .limitOrderCreate2 owner orderid amountToSell exchangeRate fillOrKill expiration => do
    if amountToSell.symbol ≠ exchangeRate.base.symbol then
      throw "Sell asset must be the base of the price"
    unless exchangeRate.Valid do throw ""
    -- the market check of the source holds of a valid rate: its symbols differ
    let r ← fromExcept (amountToSell.mulPrice exchangeRate)
    unless 0 < r.amount do throw "Amount to sell cannot round to 0 when traded"
    Chain.limitOrderCreate2 owner orderid amountToSell exchangeRate fillOrKill expiration
  | .limitOrderCancel owner orderid => Chain.limitOrderCancel owner orderid
  | .clearExpiredOrders => Chain.clearExpiredOrders

/-- An operation in its own transaction: what it throws undoes it. -/
def MarketOp.run (op : MarketOp Acc) (s : MarketState Acc) : MarketState Acc :=
  match op.apply.run s with
  | .ok _ s' => s'
  | .error _ _ => s

/-- The operations applied one after the other. -/
def runMarketOps (ops : List (MarketOp Acc)) (s : MarketState Acc) : MarketState Acc :=
  ops.foldl (fun s op => op.run s) s

end Chain
end HiveChain
