import Mathlib.Data.Fintype.Fin
import Mathlib.Tactic.Linarith
import HiveChain.Chain.MarketSpec

/-!
# HiveChain.Chain.MarketBook

The order book after the market operations: no two open orders cross, and every fill pays each
side at least what its own price asks.

* `Crossed o₁ o₂`: `o₂.sell_price >= ~o₁.sell_price` for `o₁` selling HIVE and `o₂` selling HBD.
* `BookInv s`: the index invariant, every price at most its `price::max`, and no crossed pair.
  The bound is what lets `apply_order` see a resting order: it walks down from
  `lower_bound( (~p).max() )`.
* `MarketOp.WithinSupply op`: the amount an operation sells is at most `HIVE_MAX_SATOSHIS`, as
  every balance is; it bounds the price of the order it places.
-/

namespace HiveChain
namespace Chain

open EState

/-! ## Rounding -/

theorem ediv_le_ediv_of_cross {n b q B Q : ℤ} (hb : 0 < b) (hQ : 0 < Q) (hn : 0 ≤ n)
    (h : q * Q ≤ b * B) : n * q / b ≤ n * B / Q := by
  rw [Int.le_ediv_iff_mul_le hQ]
  have hfloor : n * q / b * b ≤ n * q := Int.ediv_mul_le _ hb.ne'
  have hscaled : n * q / b * Q * b ≤ n * B * b :=
    calc n * q / b * Q * b = n * q / b * b * Q := by ring
      _ ≤ n * q * Q := mul_le_mul_of_nonneg_right hfloor hQ.le
      _ = n * (q * Q) := by ring
      _ ≤ n * (b * B) := mul_le_mul_of_nonneg_left h hn
      _ = n * B * b := by ring
  exact le_of_mul_le_mul_right hscaled hb

theorem ediv_mul_ediv_le {n B Q : ℤ} (hB : 0 < B) (hQ : 0 < Q) : n * B / Q * Q / B ≤ n :=
  Int.ediv_le_of_le_mul hB (Int.ediv_mul_le _ hQ.ne')

theorem ediv_mul_ediv_le_of_cross {o b q B Q : ℤ} (hb : 0 < b) (hB : 0 < B) (hq : 0 ≤ q)
    (ho : 0 ≤ o) (h : q * Q ≤ b * B) : o * Q / B * q / b ≤ o := by
  apply Int.ediv_le_of_le_mul hb
  have hfloor : o * Q / B * B ≤ o * Q := Int.ediv_mul_le _ hB.ne'
  have hscaled : o * Q / B * q * B ≤ o * b * B :=
    calc o * Q / B * q * B = o * Q / B * B * q := by ring
      _ ≤ o * Q * q := mul_le_mul_of_nonneg_right hfloor hq
      _ = o * (q * Q) := by ring
      _ ≤ o * (b * B) := mul_le_mul_of_nonneg_left h ho
      _ = o * b * B := by ring
  exact le_of_mul_le_mul_right hscaled hB

/-! ## Prices -/

namespace Symbol

theorem eq_of_ne_of_ne {a b c : Symbol} (hab : a ≠ b) (hac : a ≠ c) : b = c := by
  cases a <;> cases b <;> cases c <;> simp_all

end Symbol

namespace Price

theorem inv_le_comm {a b : Price} : a.inv.Le b ↔ b.inv.Le a := by
  unfold Le inv
  constructor <;> intro h <;> linarith [mul_comm a.quote.amount b.quote.amount,
    mul_comm a.base.amount b.base.amount]

theorem max_eq_of_sameMarket {a b : Price} (h : a.SameMarket b) : a.max = b.max := by
  unfold max
  rw [h.1, h.2]

theorem sameMarket_inv {p q : Price} (hp : p.Valid) (hq : q.Valid)
    (hne : p.base.symbol ≠ q.base.symbol) : q.SameMarket p.inv :=
  ⟨Symbol.eq_of_ne_of_ne hne hp.2.2, Symbol.eq_of_ne_of_ne hq.2.2 hne.symm⟩

theorem le_max {p : Price} (hb : p.base.amount ≤ hiveMaxSatoshis * p.quote.amount) :
    p.Le p.max := by
  unfold Le max
  dsimp only
  linarith

end Price

theorem mulPrice_base {a r : Asset} {p : Price} (hsym : a.symbol = p.base.symbol)
    (ha : 0 ≤ a.amount) (hp : p.Valid) (h : a.mulPrice p = .ok r) :
    r = ⟨a.amount * p.quote.amount / p.base.amount, p.quote.symbol⟩ := by
  unfold Asset.mulPrice at h
  dsimp only at h
  rw [if_pos hsym] at h
  have hq : ((p.quote.amount.toNat : Nat) : Int) = p.quote.amount := Int.toNat_of_nonneg hp.2.1.le
  have hb : ((p.base.amount.toNat : Nat) : Int) = p.base.amount := Int.toNat_of_nonneg hp.1.le
  split at h
  · -- within `uint128_to_uint64`: the amount is non-negative, so is the result
    cases h
    rw [if_neg (not_lt.mpr ha)]
    congr 1
    push_cast [hq, hb]
    rw [abs_of_nonneg ha]
  · cases h

theorem mulPrice_quote {a r : Asset} {p : Price} (hsym : a.symbol = p.quote.symbol)
    (ha : 0 ≤ a.amount) (hp : p.Valid) (h : a.mulPrice p = .ok r) :
    r = ⟨a.amount * p.base.amount / p.quote.amount, p.base.symbol⟩ := by
  unfold Asset.mulPrice at h
  have hne : a.symbol ≠ p.base.symbol := fun e => hp.2.2 (e.symm.trans hsym)
  dsimp only at h
  rw [if_neg hne, if_pos hsym] at h
  have hq : ((p.quote.amount.toNat : Nat) : Int) = p.quote.amount := Int.toNat_of_nonneg hp.2.1.le
  have hb : ((p.base.amount.toNat : Nat) : Int) = p.base.amount := Int.toNat_of_nonneg hp.1.le
  split at h
  · -- within `uint128_to_uint64`: the amount is non-negative, so is the result
    cases h
    rw [if_neg (not_lt.mpr ha)]
    congr 1
    push_cast [hq, hb]
    rw [abs_of_nonneg ha]
  · cases h

theorem base_le_of_mulPrice_pos {a r : Asset} {p : Price} (hsym : a.symbol = p.base.symbol)
    (hp : p.Valid) (h : a.mulPrice p = .ok r) (hr : 0 < r.amount) :
    0 < a.amount ∧ p.base.amount ≤ a.amount * p.quote.amount := by
  have ha : 0 < a.amount := by
    rcases lt_trichotomy a.amount 0 with hneg | hzero | hpos
    · -- a negative amount converts to a non-positive one
      unfold Asset.mulPrice at h
      dsimp only at h
      rw [if_pos hsym] at h
      split at h
      · cases h
        simp only at hr
        have := Int.natCast_nonneg (a.amount.natAbs * p.quote.amount.toNat / p.base.amount.toNat)
        omega
      · cases h
    · rw [mulPrice_base hsym hzero.ge hp h, hzero, zero_mul, Int.zero_ediv] at hr
      exact absurd hr (lt_irrefl 0)
    · exact hpos
  rw [mulPrice_base hsym ha.le hp h] at hr
  refine ⟨ha, ?_⟩
  by_contra hlt
  have : a.amount * p.quote.amount / p.base.amount = 0 :=
    Int.ediv_eq_zero_of_lt (mul_nonneg ha.le hp.2.1.le) (lt_of_not_ge hlt)
  simp only [this, lt_self_iff_false] at hr

/-! ## The fills -/

section Fills

variable {Acc : Type}

theorem matchAmounts_fair {newO oldO : LimitOrder Acc} {newReceives oldReceives : Asset}
    (hnew : newO.sellPrice.Valid) (hold : oldO.sellPrice.Valid)
    (hmarket : oldO.sellPrice.SameMarket newO.sellPrice.inv)
    (hcross : newO.sellPrice.inv.Le oldO.sellPrice) (hn : 0 ≤ newO.forSale)
    (ho : 0 ≤ oldO.forSale)
    (h : matchAmounts newO.amountForSale oldO.amountForSale oldO.sellPrice =
      .ok (newReceives, oldReceives)) :
    oldReceives.amount * newO.sellPrice.quote.amount / newO.sellPrice.base.amount ≤
        newReceives.amount ∧
      newReceives.amount * oldO.sellPrice.quote.amount / oldO.sellPrice.base.amount ≤
        oldReceives.amount := by
  -- the new order sells `n` at `b / q`, the old one `o` at `B / Q`; crossing is `q Q ≤ b B`
  have hb := hnew.1
  have hq := hnew.2.1
  have hB := hold.1
  have hQ := hold.2.1
  have hcross' : newO.sellPrice.quote.amount * oldO.sellPrice.quote.amount ≤
      newO.sellPrice.base.amount * oldO.sellPrice.base.amount := hcross
  unfold matchAmounts at h
  cases hv : oldO.amountForSale.mulPrice oldO.sellPrice with
  | error e => simp only [hv, bind, Except.bind, reduceCtorEq] at h
  | ok v =>
    have hv' := mulPrice_base (show oldO.amountForSale.symbol = _ from rfl) ho hold hv
    simp only [hv, bind, Except.bind] at h
    split_ifs at h with hsym hle
    · -- the new order sells all it has: it gets `n B / Q`, the old order gets `n`
      cases hr : newO.amountForSale.mulPrice oldO.sellPrice with
      | error e => simp only [hr, reduceCtorEq] at h
      | ok r =>
        have hr' := mulPrice_quote
          (show newO.amountForSale.symbol = oldO.sellPrice.quote.symbol from hmarket.2.symm) hn hold hr
        simp only [hr, pure, Except.pure, Except.ok.injEq, Prod.mk.injEq] at h
        obtain ⟨rfl, rfl⟩ := h
        subst hr'
        simp only [LimitOrder.amountForSale]
        constructor
        · exact ediv_le_ediv_of_cross hb hQ hn hcross'
        · exact ediv_mul_ediv_le hB hQ
    · -- the old order sells all it has: it gets `o Q / B`, the new order gets `o`
      simp only [pure, Except.pure, Except.ok.injEq, Prod.mk.injEq] at h
      obtain ⟨rfl, rfl⟩ := h
      subst hv'
      simp only [LimitOrder.amountForSale]
      constructor
      · exact ediv_mul_ediv_le_of_cross hb hB hq.le ho hcross'
      · exact le_refl _

end Fills

/-! ## The book -/

section Book

variable {Acc : Type} [DecidableEq Acc]

/-- `o₂.sell_price >= ~o₁.sell_price` for `o₁` selling HIVE and `o₂` selling HBD: the HBD side
offers at least what the HIVE side asks. -/
def Crossed (o₁ o₂ : LimitOrder Acc) : Prop :=
  o₁.sellPrice.base.symbol = .hive ∧ o₂.sellPrice.base.symbol = .hbd ∧
    o₁.sellPrice.inv.Le o₂.sellPrice

instance (o₁ o₂ : LimitOrder Acc) : Decidable (Crossed o₁ o₂) :=
  inferInstanceAs (Decidable (_ ∧ _ ∧ _))

omit [DecidableEq Acc] in
theorem crossed_of_price_eq {o₁ o₂ c₁ c₂ : LimitOrder Acc} (h₁ : c₁.sellPrice = o₁.sellPrice)
    (h₂ : c₂.sellPrice = o₂.sellPrice) (h : Crossed o₁ o₂) : Crossed c₁ c₂ := by
  unfold Crossed at h ⊢
  rwa [h₁, h₂]

/-- The book as the market keeps it: the index invariant, every price at most its `max()`, and
no two orders crossed. -/
structure BookInv (s : MarketState Acc) : Prop extends IndexInv s where
  bounded : ∀ o ∈ s.orders, o.sellPrice.Le o.sellPrice.max
  uncrossed : ∀ o₁ ∈ s.orders, ∀ o₂ ∈ s.orders, ¬Crossed o₁ o₂

omit [DecidableEq Acc] in
theorem BookInv.of_shrinks {s s' : MarketState Acc} (hs : BookInv s) (h : Shrinks s s') :
    BookInv s' where
  toIndexInv := hs.toIndexInv.of_shrinks h
  bounded o' ho' := by
    obtain ⟨o, ho, -, hp⟩ := h.price_kept o' ho'
    exact hp ▸ hs.bounded o ho
  uncrossed o₁' ho₁' o₂' ho₂' hc := by
    obtain ⟨o₁, ho₁, -, hp₁⟩ := h.price_kept o₁' ho₁'
    obtain ⟨o₂, ho₂, -, hp₂⟩ := h.price_kept o₂' ho₂'
    exact hs.uncrossed o₁ ho₁ o₂ ho₂ (crossed_of_price_eq hp₁ hp₂ hc)

omit [DecidableEq Acc] in
theorem mem_matchCandidates_of_crossing {orders : List (LimitOrder Acc)} {p : Price}
    {o : LimitOrder Acc} (ho : o ∈ orders) (hp : p.Valid) (hv : o.sellPrice.Valid)
    (hb : o.sellPrice.Le o.sellPrice.max) (hne : p.base.symbol ≠ o.sellPrice.base.symbol)
    (hcross : p.inv.Le o.sellPrice) : o ∈ matchCandidates orders p := by
  have hmarket := Price.sameMarket_inv hp hv hne
  refine mem_matchCandidates.mpr ⟨ho, hmarket, hcross, ?_⟩
  rwa [← Price.max_eq_of_sameMarket hmarket]

theorem placeOrder_book [Fintype Acc] {s s' : MarketState Acc} {owner : Acc}
    {orderid expiration : Nat} {amountToSell : Asset} {sellPrice : Price} {fillOrKill : Bool}
    {u : Unit} (hs : BookInv s) (hv : sellPrice.Valid) (hb : sellPrice.Le sellPrice.max)
    (h : (placeOrder owner orderid amountToSell sellPrice expiration fillOrKill).run s =
      .ok u s') :
    BookInv s' := by
  obtain ⟨t, filled, h₁, -, h₂, -⟩ := placeOrder_ok h
  obtain ⟨-, rfl⟩ := adjustBalance_ok h₁
  set t := creditBalance s owner ⟨-amountToSell.amount, amountToSell.symbol⟩ with ht_def
  set n : LimitOrder Acc :=
    ⟨t.nextId, t.headBlockTime, expiration, owner, orderid, amountToSell.amount, sellPrice⟩
    with hn_def
  have htorders : t.orders = s.orders := creditBalance_orders ..
  have ht : BookInv t := hs.of_shrinks (shrinks_creditBalance ..)
  have hins := ht.toIndexInv.insert (o := n) rfl hv
  obtain ⟨newO, hnewO, hid, -, hshr, hgone⟩ := applyOrder_step hins h₂
  have hnew : newO = n := List.inj_on_of_nodup_map hins.nodup hnewO
    (List.mem_append_right _ (List.mem_singleton_self n)) hid
  subst hnew
  have horigin : ∀ o' ∈ s'.orders, ∃ o, (o ∈ t.orders ∨ o = n) ∧ o.id = o'.id ∧
      o.sellPrice = o'.sellPrice := by
    intro o' ho'
    obtain ⟨o, ho, hid', hp⟩ := hshr.price_kept o' ho'
    exact ⟨o, List.mem_append.mp ho |>.imp id List.mem_singleton.mp, hid', hp⟩
  -- an order of `t` crossing the new order was walked, so the new order is gone if it is left
  have hwalked : ∀ o ∈ t.orders, n.sellPrice.base.symbol ≠ o.sellPrice.base.symbol →
      n.sellPrice.inv.Le o.sellPrice → n.id ∈ s'.ids → o.id ∉ s'.ids := by
    intro o ho hne hcross hleft
    have hcand := mem_matchCandidates_of_crossing (List.mem_append_left [n] ho) hv
      (ht.valid o ho) (ht.bounded o ho) hne hcross
    rcases hgone with hgone | hall
    · exact absurd hleft hgone
    · exact hall o hcand
  refine ⟨hins.of_shrinks hshr, fun o' ho' => ?_, fun o₁' ho₁' o₂' ho₂' hc => ?_⟩
  · obtain ⟨o, ho | rfl, -, hp⟩ := horigin o' ho'
    · exact hp ▸ ht.bounded o ho
    · exact hp ▸ hb
  · obtain ⟨o₁, ho₁, hid₁, hp₁⟩ := horigin o₁' ho₁'
    obtain ⟨o₂, ho₂, hid₂, hp₂⟩ := horigin o₂' ho₂'
    have hc' := crossed_of_price_eq hp₁ hp₂ hc
    have hleft : ∀ o', o' ∈ s'.orders → o'.id ∈ s'.ids := fun o' ho' => List.mem_map_of_mem ho'
    rcases ho₁ with ho₁ | rfl <;> rcases ho₂ with ho₂ | rfl
    · exact ht.uncrossed o₁ ho₁ o₂ ho₂ hc'
    · -- an order of `t` selling HIVE against the new order selling HBD
      refine hwalked o₁ ho₁ ?_ (Price.inv_le_comm.mp hc'.2.2) (hid₂ ▸ hleft o₂' ho₂')
        (hid₁ ▸ hleft o₁' ho₁')
      rw [hc'.1, hc'.2.1]
      decide
    · -- the new order selling HIVE against an order of `t` selling HBD
      refine hwalked o₂ ho₂ ?_ hc'.2.2 (hid₁ ▸ hleft o₁' ho₁') (hid₂ ▸ hleft o₂' ho₂')
      rw [hc'.1, hc'.2.1]
      decide
    · -- one order does not sell two symbols
      exact absurd (hc'.1.symm.trans hc'.2.1) (by decide)

end Book

/-! ## Over the operations -/

section Ops

variable {Acc : Type} [DecidableEq Acc]

/-- The amount an operation sells is at most `HIVE_MAX_SATOSHIS`, as every balance is. -/
def MarketOp.WithinSupply : MarketOp Acc → Prop
  | .limitOrderCreate _ _ amountToSell _ _ _ => amountToSell.amount ≤ hiveMaxSatoshis
  | .limitOrderCreate2 _ _ amountToSell _ _ _ => amountToSell.amount ≤ hiveMaxSatoshis
  | .limitOrderCancel _ _ => True
  | .clearExpiredOrders => True

instance (op : MarketOp Acc) : Decidable op.WithinSupply := by
  cases op <;> unfold MarketOp.WithinSupply <;> infer_instance

theorem hiveMaxSatoshis_pos : 0 < hiveMaxSatoshis := by decide

variable [Fintype Acc] {s s' : MarketState Acc}

theorem MarketOp.apply_book {op : MarketOp Acc} {u : Unit} (hs : BookInv s)
    (hw : op.WithinSupply) (h : op.apply.run s = .ok u s') : BookInv s' := by
  cases op with
  | limitOrderCreate owner orderid amountToSell minToReceive fillOrKill expiration =>
    simp only [MarketOp.apply] at h
    obtain ⟨-, h₁⟩ := run_throw_if_eq_ok h
    obtain ⟨hv, h₂⟩ := run_guard_eq_ok h₁
    obtain ⟨e, h₃⟩ := limitOrderCreate_ok h₂
    have hmin : 1 ≤ minToReceive.amount := hv.2.1
    refine placeOrder_book hs hv (Price.le_max ?_) h₃
    calc amountToSell.amount ≤ hiveMaxSatoshis := hw
      _ = hiveMaxSatoshis * 1 := (mul_one _).symm
      _ ≤ hiveMaxSatoshis * minToReceive.amount :=
        mul_le_mul_of_nonneg_left hmin hiveMaxSatoshis_pos.le
  | limitOrderCreate2 owner orderid amountToSell exchangeRate fillOrKill expiration =>
    simp only [MarketOp.apply] at h
    obtain ⟨hsym, h₁⟩ := run_throw_if_eq_ok h
    obtain ⟨hv, h₂⟩ := run_guard_eq_ok h₁
    obtain ⟨r, s₂, h₃, h₄⟩ := run_bind_eq_ok h₂
    obtain ⟨hr, rfl⟩ := run_fromExcept_eq_ok h₃
    obtain ⟨hpos, h₅⟩ := run_guard_eq_ok h₄
    obtain ⟨e, h₆⟩ := limitOrderCreate2_ok h₅
    -- a sale that does not round to 0 puts the rate's base below the amount times its quote
    obtain ⟨-, hbase⟩ := base_le_of_mulPrice_pos (not_not.mp hsym) hv hr hpos
    refine placeOrder_book hs hv (Price.le_max ?_) h₆
    calc exchangeRate.base.amount ≤ amountToSell.amount * exchangeRate.quote.amount := hbase
      _ ≤ hiveMaxSatoshis * exchangeRate.quote.amount :=
        mul_le_mul_of_nonneg_right hw hv.2.1.le
  | limitOrderCancel owner orderid =>
    obtain ⟨id, h₁⟩ := limitOrderCancel_ok h
    exact hs.of_shrinks (cancelOrder_step hs.nodup h₁).2.1
  | clearExpiredOrders =>
    exact hs.of_shrinks (clearExpiredOrders_step hs.nodup h).2

theorem MarketOp.run_book (op : MarketOp Acc) (hs : BookInv s) (hw : op.WithinSupply) :
    BookInv (op.run s) := by
  unfold MarketOp.run
  split
  · rename_i h
    exact MarketOp.apply_book hs hw h
  · exact hs

theorem runMarketOps_book (ops : List (MarketOp Acc)) (hw : ∀ op ∈ ops, op.WithinSupply) :
    ∀ {s : MarketState Acc}, BookInv s → BookInv (runMarketOps ops s) := by
  induction ops with
  | nil => exact fun hs => hs
  | cons op ops ih =>
    intro s hs
    exact ih (fun o ho => hw o (List.mem_cons_of_mem _ ho))
      (op.run_book hs (hw op List.mem_cons_self))

theorem holdings_runMarketOps (ops : List (MarketOp Acc)) (hs : IndexInv s)
    (hf : 25 ≤ s.hardfork) (sym : Symbol) : holdings (runMarketOps ops s) sym = holdings s sym := by
  obtain ⟨hl, -⟩ := runMarketOps_step ops hs
  have hledger := hl.ledger_eq sym
  rw [ledger_eq_holdings, ledger_eq_holdings, hl.supply_eq hf] at hledger
  simpa using hledger

/-- Internal market bookkeeping over any run of `limit_order_create`, `limit_order_create2`,
`limit_order_cancel` and `clear_expired_orders`, each in its own transaction, from a kept book:
the liquid balances and open orders less the HBD minted are conserved for each symbol, and
from `HIVE_HARDFORK_1_25` on, when no interest is minted, the liquid balances and open orders
themselves; when every amount sold is within the supply no two open orders cross; and at the
resting order's price each side of a match receives at least what its own price asks for what
it pays, rounded down. -/
theorem market_conservation_uncrossed (ops : List (MarketOp Acc)) (hs : BookInv s) :
    (∀ sym, ledger (runMarketOps ops s) sym = ledger s sym) ∧
      (25 ≤ s.hardfork → ∀ sym, holdings (runMarketOps ops s) sym = holdings s sym) ∧
      ((∀ op ∈ ops, op.WithinSupply) →
        ∀ o₁ ∈ (runMarketOps ops s).orders, ∀ o₂ ∈ (runMarketOps ops s).orders,
          ¬Crossed o₁ o₂) ∧
      ∀ (newO oldO : LimitOrder Acc) (newReceives oldReceives : Asset),
        newO.sellPrice.Valid → oldO.sellPrice.Valid →
        oldO.sellPrice.SameMarket newO.sellPrice.inv → newO.sellPrice.inv.Le oldO.sellPrice →
        0 ≤ newO.forSale → 0 ≤ oldO.forSale →
        matchAmounts newO.amountForSale oldO.amountForSale oldO.sellPrice =
          .ok (newReceives, oldReceives) →
        oldReceives.amount * newO.sellPrice.quote.amount / newO.sellPrice.base.amount ≤
            newReceives.amount ∧
          newReceives.amount * oldO.sellPrice.quote.amount / oldO.sellPrice.base.amount ≤
            oldReceives.amount := by
  refine ⟨fun sym => ?_, fun hf sym => holdings_runMarketOps ops hs.toIndexInv hf sym,
    fun hw => (runMarketOps_book ops hw hs).uncrossed, ?_⟩
  · simpa using (runMarketOps_step ops hs.toIndexInv).1.ledger_eq sym
  · intro newO oldO newReceives oldReceives hnew hold hmarket hcross hn ho h
    exact matchAmounts_fair hnew hold hmarket hcross hn ho h

end Ops

def sampleMarket : MarketState (Fin 1) where
  hardfork := 25
  headBlockTime := 2592001
  headBlockIdWord := 0
  hbdInterestRate := 1000
  currentHbdSupply := 1000000
  balance := fun _ => 0
  hbdBalance := fun _ => 1000000
  hbdSeconds := fun _ => 0
  hbdSecondsLastUpdate := fun _ => 0
  hbdLastInterestPayment := fun _ => 0
  orders := []
  nextId := 0

def sampleHbdOrder : MarketOp (Fin 1) :=
  .limitOrderCreate2 0 0 ⟨10, .hbd⟩ ⟨⟨1, .hbd⟩, ⟨1, .hive⟩⟩ false 2592101

theorem sampleMarket_bookInv : BookInv sampleMarket :=
  ⟨⟨List.nodup_nil, fun _ h => absurd h List.not_mem_nil, fun _ h => absurd h List.not_mem_nil⟩,
    fun _ h => absurd h List.not_mem_nil, fun _ h => absurd h List.not_mem_nil⟩

theorem market_conservation_uncrossed_sample :
    BookInv sampleMarket ∧
      ∀ sym, holdings (runMarketOps [sampleHbdOrder] sampleMarket) sym =
        holdings sampleMarket sym :=
  ⟨sampleMarket_bookInv,
    (market_conservation_uncrossed [sampleHbdOrder] sampleMarket_bookInv).2.1 (by decide)⟩

def interestMarket : MarketState (Fin 1) := { sampleMarket with hardfork := 24 }

/-- Before `HIVE_HARDFORK_1_25` the same order mints the interest on the seller's liquid HBD: the
HBD held in balances and orders grows from 1000 to 1008.219. -/
theorem limit_order_mints_hbd_interest :
    holdings interestMarket .hbd = 1000000 ∧
      holdings (runMarketOps [sampleHbdOrder] interestMarket) .hbd = 1008219 :=
  ⟨by decide, by decide +kernel⟩

end Chain
end HiveChain
