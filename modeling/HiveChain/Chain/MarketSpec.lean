import Mathlib.Algebra.BigOperators.Group.Finset.Piecewise
import Mathlib.Tactic.LinearCombination
import Mathlib.Tactic.Ring
import HiveChain.Lib.KeyedList
import HiveChain.Chain.Market

/-!
# HiveChain.Chain.MarketSpec

What each market function leaves behind when it returns.

* `creditBalance s a delta`: the state after an `adjust_balance` that returned.
* `ledger s sym`: the `sym` held in liquid balances and in open orders, less the HBD minted
  (`current_hbd_supply`). `LedgerStep s s' d` says a function moved it by `d`, kept the hardfork,
  and from `HIVE_HARDFORK_1_25` on minted nothing.
* `Shrinks s s'`: the orders of `s'` are orders of `s`, in index order, each with its price.
-/

namespace HiveChain
namespace Chain

open EState Finset

variable {Acc : Type} [DecidableEq Acc]

/-! ## Balances -/

/-- The state after `modify_balance` added `delta`, the HBD interest paid first. -/
def creditBalance (s : MarketState Acc) (a : Acc) (delta : Asset) : MarketState Acc :=
  match delta.symbol with
  | .hive => { s with balance := Function.update s.balance a (s.balance a + delta.amount) }
  | .hbd =>
    let s₁ := hbdInterest s a
    { s₁ with hbdBalance := Function.update s₁.hbdBalance a (s₁.hbdBalance a + delta.amount) }

section Frame

variable (s : MarketState Acc) (a : Acc)

@[simp] theorem hbdInterest_orders : (hbdInterest s a).orders = s.orders := by
  unfold hbdInterest; dsimp only; split_ifs <;> rfl

@[simp] theorem hbdInterest_nextId : (hbdInterest s a).nextId = s.nextId := by
  unfold hbdInterest; dsimp only; split_ifs <;> rfl

@[simp] theorem hbdInterest_hardfork : (hbdInterest s a).hardfork = s.hardfork := by
  unfold hbdInterest; dsimp only; split_ifs <;> rfl

theorem hbdInterest_of_hf25 (hf : 25 ≤ s.hardfork) : hbdInterest s a = s :=
  if_neg fun h => by omega

variable (delta : Asset)

@[simp] theorem creditBalance_orders : (creditBalance s a delta).orders = s.orders := by
  unfold creditBalance; split <;> simp

@[simp] theorem creditBalance_nextId : (creditBalance s a delta).nextId = s.nextId := by
  unfold creditBalance; split <;> simp

@[simp] theorem creditBalance_hardfork : (creditBalance s a delta).hardfork = s.hardfork := by
  unfold creditBalance; split <;> simp

theorem creditBalance_supply_of_hf25 (hf : 25 ≤ s.hardfork) :
    (creditBalance s a delta).currentHbdSupply = s.currentHbdSupply := by
  unfold creditBalance; split <;> simp [hbdInterest_of_hf25 s a hf]

end Frame

theorem modifyBalance_ok {a : Acc} {delta : Asset} {c : Bool} {s s' : MarketState Acc} {u : Unit}
    (h : (modifyBalance a delta c).run s = .ok u s') : s' = creditBalance s a delta := by
  unfold modifyBalance at h
  unfold creditBalance
  cases hsym : delta.symbol <;> simp only [hsym] at h ⊢
  · obtain ⟨⟨⟩, s₁, h₁, h₂⟩ := run_bind_eq_ok h
    cases h₁
    obtain ⟨s₃, s₄, h₃, h₄⟩ := run_bind_eq_ok h₂
    cases h₃
    obtain ⟨-, rfl⟩ := run_ite_throw_eq_ok h₄
    rfl
  · obtain ⟨⟨⟩, s₁, h₁, h₂⟩ := run_bind_eq_ok h
    cases h₁
    obtain ⟨⟨⟩, s₂, h₂', h₃⟩ := run_bind_eq_ok h₂
    cases h₂'
    obtain ⟨s₄, s₅, h₄, h₅⟩ := run_bind_eq_ok h₃
    cases h₄
    obtain ⟨-, rfl⟩ := run_ite_throw_eq_ok h₅
    rfl

theorem adjustBalance_ok {a : Acc} {delta : Asset} {s s' : MarketState Acc} {u : Unit}
    (h : (adjustBalance a delta).run s = .ok u s') :
    (delta.amount < 0 → -delta.amount ≤ s.getBalance a delta.symbol) ∧
      s' = creditBalance s a delta := by
  obtain ⟨s₀, s₁, h₀, h₁⟩ := run_bind_eq_ok h
  cases h₀
  dsimp only at h₁
  obtain ⟨hguard, h₂⟩ := run_throw_if_eq_ok h₁
  refine ⟨fun hneg => ?_, modifyBalance_ok h₂⟩
  by_contra hlt
  exact hguard ⟨hneg, lt_of_not_ge hlt⟩

/-! ## The order index -/

omit [DecidableEq Acc] in
theorem findOrder_ok {id : Nat} {s s' : MarketState Acc} {o : LimitOrder Acc}
    (h : (findOrder id).run s = .ok o s') : s' = s ∧ o ∈ s.orders ∧ o.id = id := by
  obtain ⟨s₀, s₁, h₀, h₁⟩ := run_bind_eq_ok h
  cases h₀
  split at h₁
  · rename_i o' hfind
    cases h₁
    exact ⟨rfl, List.mem_of_find?_eq_some hfind, by simpa using List.find?_some hfind⟩
  · cases h₁

omit [DecidableEq Acc] in
theorem removeOrder_run (id : Nat) (s : MarketState Acc) :
    (removeOrder id).run s = .ok ⟨⟩ { s with orders := s.orders.filter (·.id ≠ id) } := rfl

omit [DecidableEq Acc] in
theorem modifyOrder_run (id : Nat) (f : LimitOrder Acc → LimitOrder Acc) (s : MarketState Acc) :
    (modifyOrder id f).run s =
      .ok ⟨⟩ { s with orders := s.orders.map fun o => if o.id = id then f o else o } := rfl

theorem cancelOrder_ok {id : Nat} {s s' : MarketState Acc} {u : Unit}
    (h : (cancelOrder id).run s = .ok u s') :
    ∃ o ∈ s.orders, o.id = id ∧
      s' = { creditBalance s o.seller o.amountForSale with
        orders := (creditBalance s o.seller o.amountForSale).orders.filter (·.id ≠ id) } := by
  obtain ⟨o, s₁, h₁, h₂⟩ := run_bind_eq_ok h
  obtain ⟨rfl, ho, hid⟩ := findOrder_ok h₁
  obtain ⟨⟨⟩, s₂, h₃, h₄⟩ := run_bind_eq_ok h₂
  obtain ⟨-, rfl⟩ := adjustBalance_ok h₃
  rw [removeOrder_run] at h₄
  cases h₄
  exact ⟨o, ho, hid, rfl⟩

theorem fillOrder_ok {id : Nat} {pays receives : Asset} {s s' : MarketState Acc} {b : Bool}
    (h : (fillOrder id pays receives).run s = .ok b s') :
    ∃ o, (findOrder id).run s = .ok o s ∧ o.amountForSale.symbol = pays.symbol ∧
      pays.symbol ≠ receives.symbol ∧
      ((pays = o.amountForSale ∧ b = true ∧
          s' = { creditBalance s o.seller receives with
            orders := (creditBalance s o.seller receives).orders.filter (·.id ≠ id) }) ∨
        (pays ≠ o.amountForSale ∧ (s.hasHardfork 20 → pays.amount < o.forSale) ∧
          ((b = true ∧ (cancelOrder id).run { creditBalance s o.seller receives with
              orders := (creditBalance s o.seller receives).orders.map fun c => if c.id = id then
                { c with forSale := c.forSale - pays.amount } else c } = .ok () s') ∨
            (b = false ∧ s' = { creditBalance s o.seller receives with
              orders := (creditBalance s o.seller receives).orders.map fun c => if c.id = id then
                { c with forSale := c.forSale - pays.amount } else c })))) := by
  obtain ⟨o, s₁, h₁, h₂⟩ := run_bind_eq_ok h
  obtain ⟨rfl, -, -⟩ := findOrder_ok h₁
  dsimp only at h₂
  obtain ⟨hsym, h₃⟩ := run_throw_if_eq_ok h₂
  simp only [not_or, not_not] at hsym
  obtain ⟨⟨⟩, s₂, h₄, h₅⟩ := run_bind_eq_ok h₃
  obtain ⟨-, rfl⟩ := adjustBalance_ok h₄
  refine ⟨o, h₁, hsym.1, hsym.2, ?_⟩
  by_cases hfull : pays = o.amountForSale
  · -- all it had for sale: the order is removed
    rw [if_pos hfull] at h₅
    obtain ⟨⟨⟩, s₃, h₆, h₇⟩ := run_bind_eq_ok h₅
    rw [removeOrder_run] at h₆
    cases h₆
    cases h₇
    exact .inl ⟨hfull, rfl, rfl⟩
  · -- a part: the order pays it, and is cancelled if the rest would receive nothing
    rw [if_neg hfull] at h₅
    obtain ⟨s₃, s₄, h₆, h₇⟩ := run_bind_eq_ok h₅
    cases h₆
    obtain ⟨hlt, h₈⟩ := run_throw_if_eq_ok h₇
    obtain ⟨⟨⟩, s₅, h₉, h₁₀⟩ := run_bind_eq_ok h₈
    rw [modifyOrder_run] at h₉
    cases h₉
    obtain ⟨o', s₆, h₁₁, h₁₂⟩ := run_bind_eq_ok h₁₀
    obtain ⟨rfl, -, -⟩ := findOrder_ok h₁₁
    obtain ⟨r, s₇, h₁₃, h₁₄⟩ := run_bind_eq_ok h₁₂
    obtain ⟨-, rfl⟩ := run_fromExcept_eq_ok h₁₃
    refine .inr ⟨hfull, fun hf => ?_, ?_⟩
    · by_contra hc
      exact hlt ⟨by simpa [MarketState.hasHardfork] using hf, hc⟩
    split_ifs at h₁₄
    · obtain ⟨⟨⟩, s₈, h₁₅, h₁₆⟩ := run_bind_eq_ok h₁₄
      cases h₁₆
      exact .inl ⟨rfl, h₁₅⟩
    · cases h₁₄
      exact .inr ⟨rfl, rfl⟩

/-! ## The ledger -/

/-- What `a` counts in `sym`: its amount when it is of that symbol. -/
def Asset.amountIn (a : Asset) (sym : Symbol) : Int := if a.symbol = sym then a.amount else 0

/-- What an order holds of `sym`. -/
def LimitOrder.held (sym : Symbol) (o : LimitOrder Acc) : Int :=
  if o.sellPrice.base.symbol = sym then o.forSale else 0

/-- The ids of the open orders. -/
def MarketState.ids (s : MarketState Acc) : List Nat := s.orders.map (·.id)

section Ledger

variable [Fintype Acc]

/-- The `sym` held in liquid balances and in open orders, less the HBD minted. -/
def ledger (s : MarketState Acc) (sym : Symbol) : Int :=
  ∑ a, s.getBalance a sym + (s.orders.map (LimitOrder.held sym)).sum -
    if sym = .hbd then s.currentHbdSupply else 0

/-- The `sym` held in liquid balances and in open orders. -/
def holdings (s : MarketState Acc) (sym : Symbol) : Int :=
  ∑ a, s.getBalance a sym + (s.orders.map (LimitOrder.held sym)).sum

omit [DecidableEq Acc] in
theorem ledger_eq_holdings (s : MarketState Acc) (sym : Symbol) :
    ledger s sym = holdings s sym - if sym = .hbd then s.currentHbdSupply else 0 := rfl

omit [DecidableEq Acc] in
theorem sum_update_add [DecidableEq Acc] (f : Acc → ℤ) (a : Acc) (δ : ℤ) :
    ∑ x, Function.update f a (f a + δ) x = ∑ x, f x + δ := by
  have hpoint : ∀ x, Function.update f a (f a + δ) x = f x + if x = a then δ else 0 := by
    intro x
    by_cases hx : x = a
    · subst hx
      simp
    · simp [hx]
  rw [sum_congr rfl fun x _ => hpoint x, sum_add_distrib, sum_ite_eq']
  simp

theorem ledger_update_balance (s : MarketState Acc) (a : Acc) (d : ℤ) (sym : Symbol) :
    ledger { s with balance := Function.update s.balance a (s.balance a + d) } sym =
      ledger s sym + if sym = .hive then d else 0 := by
  cases sym
  · simp only [ledger, MarketState.getBalance, sum_update_add, if_true]
    ring
  · simp [ledger, MarketState.getBalance]

theorem ledger_update_hbdBalance (s : MarketState Acc) (a : Acc) (d : ℤ) (sym : Symbol) :
    ledger { s with hbdBalance := Function.update s.hbdBalance a (s.hbdBalance a + d) } sym =
      ledger s sym + if sym = .hbd then d else 0 := by
  cases sym
  · simp [ledger, MarketState.getBalance]
  · simp only [ledger, MarketState.getBalance, sum_update_add, if_true]
    ring

theorem ledger_hbdInterest (s : MarketState Acc) (a : Acc) (sym : Symbol) :
    ledger (hbdInterest s a) sym = ledger s sym := by
  unfold hbdInterest
  dsimp only
  split_ifs
  · -- paid: the account's HBD and the supply grow by the same interest
    cases sym
    · simp [ledger, MarketState.getBalance]
    · simp only [ledger, MarketState.getBalance, sum_update_add, if_true]
      ring
  · rfl
  · rfl

theorem ledger_creditBalance (s : MarketState Acc) (a : Acc) (delta : Asset) (sym : Symbol) :
    ledger (creditBalance s a delta) sym =
      ledger s sym + if delta.symbol = sym then delta.amount else 0 := by
  unfold creditBalance
  split <;> rename_i hsym
  · rw [ledger_update_balance, hsym]
    cases sym <;> simp
  · dsimp only
    rw [ledger_update_hbdBalance, ledger_hbdInterest, hsym]
    cases sym <;> simp

omit [DecidableEq Acc] in
theorem ledger_remove (s : MarketState Acc) {o : LimitOrder Acc} (hnd : s.ids.Nodup)
    (ho : o ∈ s.orders) (sym : Symbol) :
    ledger { s with orders := s.orders.filter (·.id ≠ o.id) } sym + o.held sym = ledger s sym := by
  have hsum := KeyedList.sum_filter_key_ne LimitOrder.id (LimitOrder.held sym) hnd ho
  have hliquid : ∑ a, ({ s with orders := s.orders.filter (·.id ≠ o.id) } :
      MarketState Acc).getBalance a sym = ∑ a, s.getBalance a sym := rfl
  simp only [ledger, hliquid]
  linear_combination hsum

omit [DecidableEq Acc] in
theorem ledger_sell (s : MarketState Acc) {o : LimitOrder Acc} (hnd : s.ids.Nodup)
    (ho : o ∈ s.orders) (d : ℤ) (sym : Symbol) :
    ledger { s with orders := s.orders.map fun c =>
        if c.id = o.id then { c with forSale := c.forSale - d } else c } sym +
      (if o.sellPrice.base.symbol = sym then d else 0) = ledger s sym := by
  have hsum := KeyedList.sum_map_update_key LimitOrder.id (LimitOrder.held sym) hnd ho
    fun c => { c with forSale := c.forSale - d }
  have hupd : LimitOrder.held sym { o with forSale := o.forSale - d } =
      LimitOrder.held sym o - if o.sellPrice.base.symbol = sym then d else 0 := by
    unfold LimitOrder.held
    split_ifs <;> ring
  have hliquid : ∑ a, ({ s with orders := s.orders.map fun c =>
      if c.id = o.id then { c with forSale := c.forSale - d } else c } :
      MarketState Acc).getBalance a sym = ∑ a, s.getBalance a sym := rfl
  rw [hupd] at hsum
  simp only [ledger, hliquid]
  linear_combination hsum

omit [DecidableEq Acc] in
theorem ledger_insert (s : MarketState Acc) (o : LimitOrder Acc) (n : Nat) (sym : Symbol) :
    ledger { s with orders := s.orders ++ [o], nextId := n } sym = ledger s sym + o.held sym := by
  have hliquid : ∑ a, ({ s with orders := s.orders ++ [o], nextId := n } :
      MarketState Acc).getBalance a sym = ∑ a, s.getBalance a sym := rfl
  simp only [ledger, hliquid, List.map_append, List.sum_append, List.map_cons, List.map_nil,
    List.sum_cons, List.sum_nil]
  ring

/-- A function moved the ledger by `d`, kept the hardfork and, from `HIVE_HARDFORK_1_25` on, the
HBD supply. -/
structure LedgerStep (s s' : MarketState Acc) (d : Symbol → ℤ) : Prop where
  ledger_eq : ∀ sym, ledger s' sym = ledger s sym + d sym
  hardfork_eq : s'.hardfork = s.hardfork
  supply_eq : 25 ≤ s.hardfork → s'.currentHbdSupply = s.currentHbdSupply

namespace LedgerStep

variable {s₁ s₂ s₃ : MarketState Acc} {d d₁ d₂ : Symbol → ℤ}

omit [DecidableEq Acc] in
theorem refl (s : MarketState Acc) : LedgerStep s s 0 :=
  ⟨fun _ => by simp, rfl, fun _ => rfl⟩

omit [DecidableEq Acc] in
theorem trans (h₁ : LedgerStep s₁ s₂ d₁) (h₂ : LedgerStep s₂ s₃ d₂) : LedgerStep s₁ s₃ (d₁ + d₂) where
  ledger_eq sym := by rw [h₂.ledger_eq, h₁.ledger_eq, Pi.add_apply, add_assoc]
  hardfork_eq := h₂.hardfork_eq.trans h₁.hardfork_eq
  supply_eq hf := (h₂.supply_eq (h₁.hardfork_eq ▸ hf)).trans (h₁.supply_eq hf)

omit [DecidableEq Acc] in
theorem congr (h : LedgerStep s₁ s₂ d₁) (hd : ∀ sym, d₁ sym = d₂ sym) : LedgerStep s₁ s₂ d₂ :=
  ⟨fun sym => by rw [h.ledger_eq, hd], h.hardfork_eq, h.supply_eq⟩

end LedgerStep

theorem ledgerStep_creditBalance (s : MarketState Acc) (a : Acc) (delta : Asset) :
    LedgerStep s (creditBalance s a delta) delta.amountIn :=
  ⟨ledger_creditBalance s a delta, creditBalance_hardfork s a delta,
    creditBalance_supply_of_hf25 s a delta⟩

omit [DecidableEq Acc] in
theorem ledgerStep_remove (s : MarketState Acc) {o : LimitOrder Acc} (hnd : s.ids.Nodup)
    (ho : o ∈ s.orders) :
    LedgerStep s { s with orders := s.orders.filter (·.id ≠ o.id) } fun sym => -o.held sym :=
  ⟨fun sym => by linear_combination ledger_remove s hnd ho sym, rfl, fun _ => rfl⟩

omit [DecidableEq Acc] in
theorem ledgerStep_insert (s : MarketState Acc) (o : LimitOrder Acc) (n : Nat) :
    LedgerStep s { s with orders := s.orders ++ [o], nextId := n } fun sym => o.held sym :=
  ⟨ledger_insert s o n, rfl, fun _ => rfl⟩

omit [DecidableEq Acc] in
theorem ledgerStep_sell (s : MarketState Acc) {o : LimitOrder Acc} (hnd : s.ids.Nodup)
    (ho : o ∈ s.orders) (d : ℤ) :
    LedgerStep s { s with orders := s.orders.map fun c =>
        if c.id = o.id then { c with forSale := c.forSale - d } else c }
      fun sym => -if o.sellPrice.base.symbol = sym then d else 0 :=
  ⟨fun sym => by linear_combination ledger_sell s hnd ho d sym, rfl, fun _ => rfl⟩

end Ledger

/-! ## The book -/

/-- The orders of `s'` are orders of `s`, in index order, each with its price. -/
structure Shrinks (s s' : MarketState Acc) : Prop where
  ids_sublist : s'.ids.Sublist s.ids
  price_kept : ∀ o' ∈ s'.orders, ∃ o ∈ s.orders, o.id = o'.id ∧ o.sellPrice = o'.sellPrice
  nextId_eq : s'.nextId = s.nextId

namespace Shrinks

variable {s₁ s₂ s₃ : MarketState Acc}

omit [DecidableEq Acc] in
theorem refl (s : MarketState Acc) : Shrinks s s :=
  ⟨List.Sublist.refl _, fun o ho => ⟨o, ho, rfl, rfl⟩, rfl⟩

omit [DecidableEq Acc] in
theorem trans (h₁ : Shrinks s₁ s₂) (h₂ : Shrinks s₂ s₃) : Shrinks s₁ s₃ where
  ids_sublist := h₂.ids_sublist.trans h₁.ids_sublist
  price_kept o₃ ho₃ := by
    obtain ⟨o₂, ho₂, hid₂, hp₂⟩ := h₂.price_kept o₃ ho₃
    obtain ⟨o₁, ho₁, hid₁, hp₁⟩ := h₁.price_kept o₂ ho₂
    exact ⟨o₁, ho₁, hid₁.trans hid₂, hp₁.trans hp₂⟩
  nextId_eq := h₂.nextId_eq.trans h₁.nextId_eq

omit [DecidableEq Acc] in
theorem nodup (h : Shrinks s₁ s₂) (hnd : s₁.ids.Nodup) : s₂.ids.Nodup :=
  hnd.sublist h.ids_sublist

omit [DecidableEq Acc] in
theorem not_mem (h : Shrinks s₁ s₂) {id : Nat} (hid : id ∉ s₁.ids) : id ∉ s₂.ids :=
  fun hm => hid (h.ids_sublist.subset hm)

end Shrinks

theorem shrinks_creditBalance (s : MarketState Acc) (a : Acc) (delta : Asset) :
    Shrinks s (creditBalance s a delta) := by
  refine ⟨?_, fun o ho => ⟨o, ?_, rfl, rfl⟩, creditBalance_nextId s a delta⟩
  · simp only [MarketState.ids, creditBalance_orders]
    exact List.Sublist.refl _
  · rwa [creditBalance_orders] at ho

omit [DecidableEq Acc] in
theorem shrinks_remove (s : MarketState Acc) (id : Nat) :
    Shrinks s { s with orders := s.orders.filter (·.id ≠ id) } :=
  ⟨List.filter_sublist.map _, fun o ho => ⟨o, List.mem_of_mem_filter ho, rfl, rfl⟩, rfl⟩

omit [DecidableEq Acc] in
theorem not_mem_remove (s : MarketState Acc) (id : Nat) :
    id ∉ ({ s with orders := s.orders.filter (·.id ≠ id) } : MarketState Acc).ids := by
  simp [MarketState.ids]

omit [DecidableEq Acc] in
theorem shrinks_sell (s : MarketState Acc) (id : Nat) (d : ℤ) :
    Shrinks s { s with orders := s.orders.map fun c =>
      if c.id = id then { c with forSale := c.forSale - d } else c } := by
  refine ⟨?_, fun o' ho' => ?_, rfl⟩
  · simp only [MarketState.ids]
    rw [KeyedList.map_key_update LimitOrder.id (fun c => { c with forSale := c.forSale - d })
      (fun _ => rfl)]
  · obtain ⟨o, ho, rfl⟩ := List.mem_map.mp ho'
    refine ⟨o, ho, ?_, ?_⟩ <;> split_ifs <;> rfl

@[simp] theorem creditBalance_ids (s : MarketState Acc) (a : Acc) (delta : Asset) :
    (creditBalance s a delta).ids = s.ids := by
  simp [MarketState.ids]

omit [DecidableEq Acc] in
theorem findOrder_eq_of_mem {s s' : MarketState Acc} {o o' : LimitOrder Acc}
    (hnd : s.ids.Nodup) (ho : o ∈ s.orders) (h : (findOrder o.id).run s = .ok o' s') : o' = o := by
  obtain ⟨-, ho', hid⟩ := findOrder_ok h
  exact List.inj_on_of_nodup_map hnd ho' ho hid

theorem fillOrder_full {s s' : MarketState Acc} {o : LimitOrder Acc} {pays receives : Asset}
    {b : Bool} (hnd : s.ids.Nodup) (ho : o ∈ s.orders) (hpays : pays = o.amountForSale)
    (h : (fillOrder o.id pays receives).run s = .ok b s') : b = true := by
  obtain ⟨o', hfind, -, -, hcase⟩ := fillOrder_ok h
  obtain rfl := findOrder_eq_of_mem hnd ho hfind
  rcases hcase with ⟨-, hb, -⟩ | ⟨hpart, -⟩
  · exact hb
  · exact absurd hpays hpart

theorem matchAmounts_full {newForSale oldForSale newReceives oldReceives : Asset}
    {matchPrice : Price}
    (h : matchAmounts newForSale oldForSale matchPrice = .ok (newReceives, oldReceives)) :
    oldReceives = newForSale ∨ newReceives = oldForSale := by
  unfold matchAmounts at h
  cases hv : oldForSale.mulPrice matchPrice with
  | error e => simp only [hv, bind, Except.bind, reduceCtorEq] at h
  | ok v =>
    simp only [hv, bind, Except.bind] at h
    split_ifs at h with hsym hle
    · -- the new order sells all it has
      cases hn : newForSale.mulPrice matchPrice with
      | error e => simp only [hn, reduceCtorEq] at h
      | ok r =>
        simp only [hn, pure, Except.pure, Except.ok.injEq, Prod.mk.injEq] at h
        exact .inl h.2.symm
    · -- the old order sells all it has
      simp only [pure, Except.pure, Except.ok.injEq, Prod.mk.injEq] at h
      exact .inr h.1.symm

theorem matchOrders_ok {newId oldId : Nat} {matchPrice : Price} {s s' : MarketState Acc} {r : Nat}
    (h : (matchOrders newId oldId matchPrice).run s = .ok r s') :
    ∃ newO oldO newReceives oldReceives s₁ b₁ b₂,
      (findOrder newId).run s = .ok newO s ∧ (findOrder oldId).run s = .ok oldO s ∧
      matchAmounts newO.amountForSale oldO.amountForSale matchPrice =
        .ok (newReceives, oldReceives) ∧
      (fillOrder newId oldReceives newReceives).run s = .ok b₁ s₁ ∧
      (fillOrder oldId newReceives oldReceives).run s₁ = .ok b₂ s' ∧
      r = (if b₁ then 1 else 0) + (if b₂ then 2 else 0) := by
  unfold matchOrders at h
  obtain ⟨newO, s₁, h₁, h₂⟩ := run_bind_eq_ok h
  obtain ⟨rfl, -, -⟩ := findOrder_ok h₁
  obtain ⟨oldO, s₂, h₃, h₄⟩ := run_bind_eq_ok h₂
  obtain ⟨rfl, -, -⟩ := findOrder_ok h₃
  obtain ⟨s₃, s₄, h₅, h₆⟩ := run_bind_eq_ok h₄
  cases h₅
  dsimp only at h₆
  obtain ⟨-, h₇⟩ := run_throw_if_eq_ok h₆
  obtain ⟨⟨newReceives, oldReceives⟩, s₅, h₈, h₉⟩ := run_bind_eq_ok h₇
  obtain ⟨hm, rfl⟩ := run_fromExcept_eq_ok h₈
  dsimp only at h₉
  obtain ⟨-, h₁₀⟩ := run_throw_if_eq_ok h₉
  obtain ⟨b₁, s₆, h₁₁, h₁₂⟩ := run_bind_eq_ok h₁₀
  obtain ⟨b₂, s₇, h₁₃, h₁₄⟩ := run_bind_eq_ok h₁₂
  obtain ⟨-, h₁₅⟩ := run_throw_if_eq_ok h₁₄
  cases h₁₅
  exact ⟨newO, oldO, newReceives, oldReceives, s₆, b₁, b₂, h₁, h₃, hm, h₁₁, h₁₃, rfl⟩

theorem placeOrder_ok {owner : Acc} {orderid expiration : Nat} {amountToSell : Asset}
    {sellPrice : Price} {fillOrKill : Bool} {u : Unit}
    (h : (placeOrder owner orderid amountToSell sellPrice expiration fillOrKill).run s =
      .ok u s') :
    ∃ t filled, (adjustBalance owner ⟨-amountToSell.amount, amountToSell.symbol⟩).run s =
        .ok () t ∧ amountToSell.symbol = sellPrice.base.symbol ∧
      (applyOrder t.nextId).run { t with
        orders := t.orders ++ [⟨t.nextId, t.headBlockTime, expiration, owner, orderid,
          amountToSell.amount, sellPrice⟩],
        nextId := t.nextId + 1 } = .ok filled s' ∧
      (fillOrKill = true → filled = true) := by
  obtain ⟨⟨⟩, t, h₁, h₂⟩ := run_bind_eq_ok h
  obtain ⟨t', s₂, h₃, h₄⟩ := run_bind_eq_ok h₂
  cases h₃
  dsimp only at h₄
  obtain ⟨hsym, h₅⟩ := run_throw_if_eq_ok h₄
  obtain ⟨-, h₆⟩ := run_throw_if_eq_ok h₅
  obtain ⟨⟨⟩, s₃, h₇, h₈⟩ := run_bind_eq_ok h₆
  cases h₇
  obtain ⟨filled, s₄, h₉, h₁₀⟩ := run_bind_eq_ok h₈
  obtain ⟨hfok, h₁₁⟩ := run_ite_throw_eq_ok h₁₀
  cases h₁₁
  refine ⟨t, filled, h₁, not_not.mp hsym, h₉, fun hf => ?_⟩
  by_contra hc
  exact hfok ⟨hf, hc⟩

theorem limitOrderCreate_ok {owner : Acc} {orderid expiration : Nat}
    {amountToSell minToReceive : Asset} {fillOrKill : Bool} {u : Unit}
    (h : (limitOrderCreate owner orderid amountToSell minToReceive fillOrKill expiration).run s =
      .ok u s') :
    ∃ e, (placeOrder owner orderid amountToSell ⟨amountToSell, minToReceive⟩ e fillOrKill).run s =
      .ok () s' := by
  obtain ⟨t, s₁, h₁, h₂⟩ := run_bind_eq_ok h
  cases h₁
  dsimp only at h₂
  obtain ⟨-, h₃⟩ := run_throw_if_eq_ok h₂
  split at h₃
  · split at h₃
    · obtain ⟨⟨⟩, _, h₄, -⟩ := run_bind_eq_ok h₃
      cases h₄
    · obtain ⟨e, _, h₄, h₅⟩ := run_bind_eq_ok h₃
      cases h₄
      exact ⟨_, h₅⟩
  · obtain ⟨e, _, h₄, h₅⟩ := run_bind_eq_ok h₃
    cases h₄
    exact ⟨_, h₅⟩

theorem limitOrderCreate2_ok {owner : Acc} {orderid expiration : Nat} {amountToSell : Asset}
    {exchangeRate : Price} {fillOrKill : Bool} {u : Unit}
    (h : (limitOrderCreate2 owner orderid amountToSell exchangeRate fillOrKill expiration).run s =
      .ok u s') :
    ∃ e, (placeOrder owner orderid amountToSell exchangeRate e fillOrKill).run s = .ok () s' := by
  obtain ⟨t, s₁, h₁, h₂⟩ := run_bind_eq_ok h
  cases h₁
  dsimp only at h₂
  obtain ⟨-, h₃⟩ := run_throw_if_eq_ok h₂
  split at h₃
  · split at h₃
    · obtain ⟨⟨⟩, _, h₄, -⟩ := run_bind_eq_ok h₃
      cases h₄
    · obtain ⟨e, _, h₄, h₅⟩ := run_bind_eq_ok h₃
      cases h₄
      exact ⟨_, h₅⟩
  · obtain ⟨e, _, h₄, h₅⟩ := run_bind_eq_ok h₃
    cases h₄
    exact ⟨_, h₅⟩

theorem limitOrderCancel_ok {owner : Acc} {orderid : Nat} {u : Unit}
    (h : (limitOrderCancel owner orderid).run s = .ok u s') :
    ∃ id, (cancelOrder id).run s = .ok () s' := by
  obtain ⟨t, s₁, h₁, h₂⟩ := run_bind_eq_ok h
  cases h₁
  dsimp only at h₂
  split at h₂
  · exact ⟨_, h₂⟩
  · cases h₂

/-- The order index as the source keeps it: ids unique and below the next id, every price
valid. -/
structure IndexInv (s : MarketState Acc) : Prop where
  nodup : s.ids.Nodup
  lt_nextId : ∀ i ∈ s.ids, i < s.nextId
  valid : ∀ o ∈ s.orders, o.sellPrice.Valid

omit [DecidableEq Acc] in
theorem IndexInv.of_shrinks {s s' : MarketState Acc} (hs : IndexInv s) (h : Shrinks s s') :
    IndexInv s' where
  nodup := h.nodup hs.nodup
  lt_nextId i hi := h.nextId_eq ▸ hs.lt_nextId i (h.ids_sublist.subset hi)
  valid o' ho' := by
    obtain ⟨o, ho, -, hp⟩ := h.price_kept o' ho'
    exact hp ▸ hs.valid o ho

omit [DecidableEq Acc] in
theorem IndexInv.insert {s : MarketState Acc} (hs : IndexInv s) {o : LimitOrder Acc}
    (hid : o.id = s.nextId) (hv : o.sellPrice.Valid) :
    IndexInv { s with orders := s.orders ++ [o], nextId := s.nextId + 1 } where
  nodup := by
    simp only [MarketState.ids, List.map_append, List.map_cons, List.map_nil]
    refine List.nodup_append.mpr ⟨hs.nodup, List.nodup_singleton _, fun i hi j hj => ?_⟩
    rw [List.mem_singleton] at hj
    have := hs.lt_nextId i hi
    omega
  lt_nextId i hi := by
    show i < s.nextId + 1
    simp only [MarketState.ids, List.map_append, List.mem_append, List.map_cons, List.map_nil,
      List.mem_singleton] at hi
    rcases hi with hi | rfl
    · exact Nat.lt_succ_of_lt (hs.lt_nextId i hi)
    · omega
  valid o' ho' := by
    rcases List.mem_append.mp ho' with ho' | ho'
    · exact hs.valid o' ho'
    · rw [List.mem_singleton.mp ho']
      exact hv

omit [DecidableEq Acc] in
theorem mem_matchCandidates {orders : List (LimitOrder Acc)} {p : Price} {o : LimitOrder Acc} :
    o ∈ matchCandidates orders p ↔ o ∈ orders ∧ o.sellPrice.SameMarket p.inv ∧
      p.inv.Le o.sellPrice ∧ o.sellPrice.Le p.inv.max := by
  simp [matchCandidates, List.mem_mergeSort]

/-! ## Steps -/

section Steps

variable [Fintype Acc] {s s' : MarketState Acc}

theorem cancelOrder_step {id : Nat} {u : Unit} (hnd : s.ids.Nodup)
    (h : (cancelOrder id).run s = .ok u s') :
    LedgerStep s s' 0 ∧ Shrinks s s' ∧ id ∉ s'.ids ∧
      ∀ c ∈ s.orders, c.id ≠ id → c ∈ s'.orders := by
  obtain ⟨o, ho, rfl, rfl⟩ := cancelOrder_ok h
  have ht := creditBalance_orders s o.seller o.amountForSale
  have htnd : (creditBalance s o.seller o.amountForSale).ids.Nodup := by rwa [creditBalance_ids]
  refine ⟨?_, (shrinks_creditBalance ..).trans (shrinks_remove _ o.id), not_mem_remove _ o.id,
    fun c hc hne => List.mem_filter.mpr ⟨ht ▸ hc, by simpa using hne⟩⟩
  refine ((ledgerStep_creditBalance ..).trans (ledgerStep_remove _ htnd (ht ▸ ho))).congr
    fun sym => ?_
  simp [Asset.amountIn, LimitOrder.held, LimitOrder.amountForSale]

theorem fillOrder_step {id : Nat} {pays receives : Asset} {b : Bool} (hnd : s.ids.Nodup)
    (h : (fillOrder id pays receives).run s = .ok b s') :
    LedgerStep s s' (fun sym => receives.amountIn sym - pays.amountIn sym) ∧ Shrinks s s' ∧
      (b = true → id ∉ s'.ids) ∧ ∀ c ∈ s.orders, c.id ≠ id → c ∈ s'.orders := by
  obtain ⟨o, hfind, hsym, -, hcase⟩ := fillOrder_ok h
  obtain ⟨-, ho, rfl⟩ := findOrder_ok hfind
  have ht := creditBalance_orders s o.seller receives
  have htnd : (creditBalance s o.seller receives).ids.Nodup := by rwa [creditBalance_ids]
  have hcredit := ledgerStep_creditBalance s o.seller receives
  rcases hcase with ⟨hfull, rfl, rfl⟩ | ⟨-, -, hrest⟩
  · -- it paid all it had for sale: it is removed
    refine ⟨(hcredit.trans (ledgerStep_remove _ htnd (ht ▸ ho))).congr fun sym => ?_,
      (shrinks_creditBalance ..).trans (shrinks_remove _ o.id), fun _ => not_mem_remove _ o.id,
      fun c hc hne => List.mem_filter.mpr ⟨ht ▸ hc, by simpa using hne⟩⟩
    simp only [Pi.add_apply, hfull, LimitOrder.held, Asset.amountIn, LimitOrder.amountForSale]
    ring
  · -- it paid a part, which leaves its for_sale; what is left is refunded when it would
    have hsell : LedgerStep s _ fun sym => receives.amountIn sym - pays.amountIn sym :=
      (hcredit.trans (ledgerStep_sell _ htnd (ht ▸ ho) pays.amount)).congr fun sym => by
        simp only [Pi.add_apply, Asset.amountIn, ← hsym, LimitOrder.amountForSale]
        ring
    have hshr := (shrinks_creditBalance s o.seller receives).trans (shrinks_sell _ o.id pays.amount)
    have hframe : ∀ c ∈ s.orders, c.id ≠ o.id → c ∈ ({ creditBalance s o.seller receives with
        orders := (creditBalance s o.seller receives).orders.map fun c => if c.id = o.id then
          { c with forSale := c.forSale - pays.amount } else c } : MarketState Acc).orders :=
      fun c hc hne => List.mem_map.mpr ⟨c, ht ▸ hc, if_neg hne⟩
    rcases hrest with ⟨rfl, hcancel⟩ | ⟨rfl, rfl⟩
    · obtain ⟨hl, hs, hid, hf⟩ := cancelOrder_step (hshr.nodup hnd) hcancel
      exact ⟨(hsell.trans hl).congr fun sym => by simp, hshr.trans hs, fun _ => hid,
        fun c hc hne => hf c (hframe c hc hne) hne⟩
    · exact ⟨hsell, hshr, by simp, hframe⟩

theorem matchOrders_step {newId oldId : Nat} {matchPrice : Price} {r : Nat} (hnd : s.ids.Nodup)
    (hne : oldId ≠ newId) (h : (matchOrders newId oldId matchPrice).run s = .ok r s') :
    LedgerStep s s' 0 ∧ Shrinks s s' ∧ (r % 2 = 1 → newId ∉ s'.ids) ∧
      (r % 2 ≠ 1 → oldId ∉ s'.ids) := by
  obtain ⟨newO, oldO, newReceives, oldReceives, s₁, b₁, b₂, hnew, hold, hm, h₁, h₂, rfl⟩ :=
    matchOrders_ok h
  obtain ⟨hl₁, hs₁, hgone₁, hframe₁⟩ := fillOrder_step hnd h₁
  obtain ⟨hl₂, hs₂, hgone₂, -⟩ := fillOrder_step (hs₁.nodup hnd) h₂
  refine ⟨(hl₁.trans hl₂).congr fun sym => by simp, hs₁.trans hs₂, fun hr => ?_, fun hr => ?_⟩
  · -- bit `1` is the new order's report
    have hb₁ : b₁ = true := by cases b₁ <;> cases b₂ <;> simp_all
    exact hs₂.not_mem (hgone₁ hb₁)
  · have hb₁ : b₁ = false := by cases b₁ <;> cases b₂ <;> simp_all
    obtain ⟨-, hnewO, rfl⟩ := findOrder_ok hnew
    obtain ⟨-, holdO, rfl⟩ := findOrder_ok hold
    rcases matchAmounts_full hm with hpays | hpays
    · -- the new order paid all it had, so it reported itself gone
      exact absurd (fillOrder_full hnd hnewO hpays h₁) (by simp [hb₁])
    · -- the old order paid all it had: it is still in the index after the first fill
      exact hgone₂ (fillOrder_full (hs₁.nodup hnd) (hframe₁ oldO holdO hne) hpays h₂)

theorem applyOrderLoop_step {newId : Nat} {u : Unit} :
    ∀ {l : List (LimitOrder Acc)} {s s' : MarketState Acc}, s.ids.Nodup →
      (∀ o ∈ l, o.id ≠ newId) → (applyOrderLoop newId l).run s = .ok u s' →
      LedgerStep s s' 0 ∧ Shrinks s s' ∧ (newId ∉ s'.ids ∨ ∀ o ∈ l, o.id ∉ s'.ids)
  | [], s, s', _, _, h => by
    cases h
    exact ⟨.refl s, .refl s, .inr fun _ ho => absurd ho List.not_mem_nil⟩
  | old :: rest, s, s', hnd, hne, h => by
    obtain ⟨r, s₁, h₁, h₂⟩ := run_bind_eq_ok h
    obtain ⟨hl₁, hs₁, hnew, hold⟩ :=
      matchOrders_step hnd (hne old List.mem_cons_self) h₁
    by_cases hr : r % 2 = 1
    · -- the new order is gone: the loop stops
      rw [if_pos hr] at h₂
      cases h₂
      exact ⟨hl₁, hs₁, .inl (hnew hr)⟩
    · -- the old order is gone: the loop goes on with the next one
      rw [if_neg hr] at h₂
      obtain ⟨hl₂, hs₂, hrest⟩ :=
        applyOrderLoop_step (hs₁.nodup hnd) (fun o ho => hne o (List.mem_cons_of_mem _ ho)) h₂
      refine ⟨(hl₁.trans hl₂).congr fun sym => by simp, hs₁.trans hs₂, hrest.imp_right ?_⟩
      intro hall o ho
      rcases List.mem_cons.mp ho with rfl | ho
      · exact hs₂.not_mem (hold hr)
      · exact hall o ho

theorem applyOrder_step {newId : Nat} {filled : Bool} (hs : IndexInv s)
    (h : (applyOrder newId).run s = .ok filled s') :
    ∃ newO ∈ s.orders, newO.id = newId ∧ LedgerStep s s' 0 ∧ Shrinks s s' ∧
      (newId ∉ s'.ids ∨ ∀ o ∈ matchCandidates s.orders newO.sellPrice, o.id ∉ s'.ids) := by
  obtain ⟨newO, s₁, h₁, h₂⟩ := run_bind_eq_ok h
  obtain ⟨hs₁, hnewO, rfl⟩ := findOrder_ok h₁
  subst s₁
  obtain ⟨s₂, s₃, h₃, h₄⟩ := run_bind_eq_ok h₂
  cases h₃
  obtain ⟨⟨⟩, s₄, h₅, h₆⟩ := run_bind_eq_ok h₄
  obtain ⟨s₅, s₆, h₇, h₈⟩ := run_bind_eq_ok h₆
  cases h₇
  cases h₈
  -- the orders walked sell what the new order buys, so none of them is the new order
  have hne : ∀ o ∈ matchCandidates s.orders newO.sellPrice, o.id ≠ newO.id := by
    intro o ho hid
    obtain ⟨hmem, hmarket, -⟩ := mem_matchCandidates.mp ho
    have heq : o = newO := List.inj_on_of_nodup_map hs.nodup hmem hnewO hid
    subst heq
    exact (hs.valid o hmem).2.2 hmarket.1
  obtain ⟨hl, hshr, hgone⟩ := applyOrderLoop_step hs.nodup hne h₅
  exact ⟨newO, hnewO, rfl, hl, hshr, hgone⟩

theorem placeOrder_step {owner : Acc} {orderid expiration : Nat} {amountToSell : Asset}
    {sellPrice : Price} {fillOrKill : Bool} {u : Unit} (hs : IndexInv s) (hv : sellPrice.Valid)
    (h : (placeOrder owner orderid amountToSell sellPrice expiration fillOrKill).run s =
      .ok u s') :
    LedgerStep s s' 0 ∧ IndexInv s' := by
  obtain ⟨t, filled, h₁, hsym, h₂, -⟩ := placeOrder_ok h
  obtain ⟨-, rfl⟩ := adjustBalance_ok h₁
  have ht : IndexInv (creditBalance s owner ⟨-amountToSell.amount, amountToSell.symbol⟩) :=
    hs.of_shrinks (shrinks_creditBalance ..)
  obtain ⟨-, -, -, hl, hshr, -⟩ := applyOrder_step (ht.insert rfl hv) h₂
  refine ⟨?_, (ht.insert rfl hv).of_shrinks hshr⟩
  refine (((ledgerStep_creditBalance ..).trans (ledgerStep_insert ..)).trans hl).congr
    fun sym => ?_
  simp only [Pi.add_apply, Pi.zero_apply, Asset.amountIn, LimitOrder.held, hsym]
  split_ifs <;> ring

theorem clearExpiredOrders_step {u : Unit} (hnd : s.ids.Nodup)
    (h : (clearExpiredOrders : MarketM Acc Unit).run s = .ok u s') :
    LedgerStep s s' 0 ∧ Shrinks s s' := by
  obtain ⟨t, s₁, h₁, h₂⟩ := run_bind_eq_ok h
  cases h₁
  refine forM_run_ok_inv _ (fun _ t => LedgerStep s t 0 ∧ Shrinks s t) _
    (fun _ o _ t t' _ ht hc => ?_) ⟨.refl s, .refl s⟩ h₂
  obtain ⟨hl, hshr, -⟩ := cancelOrder_step (ht.2.nodup hnd) hc
  exact ⟨(ht.1.trans hl).congr fun sym => by simp, ht.2.trans hshr⟩

theorem MarketOp.apply_step {op : MarketOp Acc} {u : Unit} (hs : IndexInv s)
    (h : op.apply.run s = .ok u s') : LedgerStep s s' 0 ∧ IndexInv s' := by
  cases op with
  | limitOrderCreate owner orderid amountToSell minToReceive fillOrKill expiration =>
    simp only [MarketOp.apply] at h
    obtain ⟨-, h₁⟩ := run_throw_if_eq_ok h
    obtain ⟨hv, h₂⟩ := run_guard_eq_ok h₁
    obtain ⟨e, h₃⟩ := limitOrderCreate_ok h₂
    exact placeOrder_step hs hv h₃
  | limitOrderCreate2 owner orderid amountToSell exchangeRate fillOrKill expiration =>
    simp only [MarketOp.apply] at h
    obtain ⟨-, h₁⟩ := run_throw_if_eq_ok h
    obtain ⟨hv, h₂⟩ := run_guard_eq_ok h₁
    obtain ⟨r, s₂, h₃, h₄⟩ := run_bind_eq_ok h₂
    obtain ⟨-, rfl⟩ := run_fromExcept_eq_ok h₃
    obtain ⟨-, h₅⟩ := run_guard_eq_ok h₄
    obtain ⟨e, h₆⟩ := limitOrderCreate2_ok h₅
    exact placeOrder_step hs hv h₆
  | limitOrderCancel owner orderid =>
    obtain ⟨id, h₁⟩ := limitOrderCancel_ok h
    obtain ⟨hl, hshr, -⟩ := cancelOrder_step hs.nodup h₁
    exact ⟨hl, hs.of_shrinks hshr⟩
  | clearExpiredOrders =>
    obtain ⟨hl, hshr⟩ := clearExpiredOrders_step hs.nodup h
    exact ⟨hl, hs.of_shrinks hshr⟩

theorem MarketOp.run_step (op : MarketOp Acc) (hs : IndexInv s) :
    LedgerStep s (op.run s) 0 ∧ IndexInv (op.run s) := by
  unfold MarketOp.run
  split
  · rename_i h
    exact MarketOp.apply_step hs h
  · exact ⟨.refl s, hs⟩

theorem runMarketOps_step (ops : List (MarketOp Acc)) :
    ∀ {s : MarketState Acc}, IndexInv s →
      LedgerStep s (runMarketOps ops s) 0 ∧ IndexInv (runMarketOps ops s) := by
  induction ops with
  | nil => exact fun hs => ⟨.refl _, hs⟩
  | cons op ops ih =>
    intro s hs
    obtain ⟨hl₁, hs₁⟩ := op.run_step hs
    obtain ⟨hl₂, hs₂⟩ := ih hs₁
    exact ⟨(hl₁.trans hl₂).congr fun sym => by simp, hs₂⟩

end Steps

end Chain
end HiveChain
