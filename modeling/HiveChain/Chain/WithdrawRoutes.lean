import HiveChain.Chain.Market
import HiveChain.Lib.KeyedList

/-!
# HiveChain.Chain.WithdrawRoutes

Vesting withdraw routes (`set_withdraw_vesting_route_evaluator`): the routes of the
`by_withdraw_route` index and the `withdraw_routes` counter of their `from` accounts.

* A route keeps `from_account`, `to_account`, `percent` and `auto_vest`; its key is
  `(from_account, to_account)`.
* `total_percent` is summed as the source does, in `uint16_t`; `RoutesInv` shows it never wraps,
  so the check reads the true sum.
* A constant of the source keeps its macro's name, in camel case (`HIVE_100_PERCENT` is
  `hive100Percent`).
-/

namespace HiveChain
namespace Chain

open EState KeyedList

/-- `withdraw_vesting_route_object`. -/
structure WithdrawRoute (Acc : Type) where
  fromAccount : Acc
  toAccount : Acc
  percent : UInt16
  autoVest : Bool

/-- The `by_withdraw_route` key. -/
def WithdrawRoute.key {Acc : Type} (r : WithdrawRoute Acc) : Acc × Acc := (r.fromAccount, r.toAccount)

def hiveMaxWithdrawRoutes : Nat := 10

/-- The routes, the `withdraw_routes` counter of the accounts, and what the evaluator reads of
the chain. -/
structure RoutesState (Acc : Type) where
  hardfork : Nat
  treasury : Acc
  routes : List (WithdrawRoute Acc)
  withdrawRoutes : Acc → Nat

abbrev RoutesM (Acc : Type) := EStateM String (RoutesState Acc)

variable {Acc : Type} [DecidableEq Acc]

/-- The `total_percent` loop: the percents of the routes of `a`, added in `uint16_t`. -/
def totalPercent (routes : List (WithdrawRoute Acc)) (a : Acc) : UInt16 :=
  (routes.filter fun r => r.fromAccount = a).foldl (fun t r => t + r.percent) 0

/-- The check of `total_percent` that ends the evaluator. -/
def checkTotalPercent (fromAccount : Acc) : RoutesM Acc Unit := do
  let s ← get
  if ¬(totalPercent s.routes fromAccount).toNat ≤ hive100Percent then
    throw "More than 100% of vesting withdrawals allocated to destinations."

/-- `set_withdraw_vesting_route_evaluator`. -/
def setWithdrawVestingRoute (fromAccount toAccount : Acc) (percent : UInt16) (autoVest : Bool) :
    RoutesM Acc Unit := do
  let s ← get
  if 21 ≤ s.hardfork ∧ toAccount = s.treasury then throw "Cannot withdraw vesting to ${s}"
  match s.routes.find? (fun r => r.key = (fromAccount, toAccount)) with
  | none =>
    if percent = 0 then throw "Cannot create a 0% destination."
    if hiveMaxWithdrawRoutes ≤ s.withdrawRoutes fromAccount then
      throw "Account already has the maximum number of routes."
    modify fun s => { s with routes := s.routes ++ [⟨fromAccount, toAccount, percent, autoVest⟩] }
    modify fun s => { s with
      withdrawRoutes := Function.update s.withdrawRoutes fromAccount (s.withdrawRoutes fromAccount + 1) }
  | some _ =>
    if percent = 0 then
      modify fun s => { s with
        routes := s.routes.filter fun r => r.key ≠ (fromAccount, toAccount) }
      modify fun s => { s with
        withdrawRoutes :=
          Function.update s.withdrawRoutes fromAccount (s.withdrawRoutes fromAccount - 1) }
    else
      modify fun s => { s with
        routes := updateKey WithdrawRoute.key s.routes (fromAccount, toAccount) fun r =>
          { r with fromAccount, toAccount, percent, autoVest } }
  checkTotalPercent fromAccount

/-- `set_withdraw_vesting_route_operation`. -/
structure SetWithdrawVestingRouteOperation (Acc : Type) where
  fromAccount : Acc
  toAccount : Acc
  percent : UInt16
  autoVest : Bool

/-- `validate` of the operation, then its evaluator. -/
def SetWithdrawVestingRouteOperation.apply (op : SetWithdrawVestingRouteOperation Acc) :
    RoutesM Acc Unit := do
  if ¬op.percent.toNat ≤ hive100Percent then throw "Percent must be valid HIVE percent"
  setWithdrawVestingRoute op.fromAccount op.toAccount op.percent op.autoVest

/-- An operation in its own transaction: what it throws undoes it. -/
def SetWithdrawVestingRouteOperation.run (op : SetWithdrawVestingRouteOperation Acc)
    (s : RoutesState Acc) : RoutesState Acc :=
  match op.apply.run s with
  | .ok _ s' => s'
  | .error _ _ => s

/-- The operations applied one after the other. -/
def runRouteOps (ops : List (SetWithdrawVestingRouteOperation Acc)) (s : RoutesState Acc) :
    RoutesState Acc :=
  ops.foldl (fun s op => op.run s) s

/-! ## The evaluator -/

/-- What the evaluator writes before its last check: a route added, removed or changed. -/
def RoutesState.setRoute (s : RoutesState Acc) (fromAccount toAccount : Acc) (percent : UInt16)
    (autoVest : Bool) : RoutesState Acc :=
  if s.routes.any fun r => r.key = (fromAccount, toAccount) then
    if percent = 0 then
      { s with
        routes := s.routes.filter fun r => r.key ≠ (fromAccount, toAccount)
        withdrawRoutes :=
          Function.update s.withdrawRoutes fromAccount (s.withdrawRoutes fromAccount - 1) }
    else
      { s with
        routes := updateKey WithdrawRoute.key s.routes (fromAccount, toAccount) fun _ =>
          ⟨fromAccount, toAccount, percent, autoVest⟩ }
  else
    { s with
      routes := s.routes ++ [⟨fromAccount, toAccount, percent, autoVest⟩]
      withdrawRoutes := Function.update s.withdrawRoutes fromAccount (s.withdrawRoutes fromAccount + 1) }

variable {s s' : RoutesState Acc} {fromAccount toAccount : Acc} {percent : UInt16} {autoVest : Bool}

theorem checkTotalPercent_ok {u : Unit} (h : (checkTotalPercent fromAccount).run s = .ok u s') :
    s' = s ∧ (totalPercent s.routes fromAccount).toNat ≤ hive100Percent := by
  obtain ⟨s₀, s₁, h₀, h₁⟩ := run_bind_eq_ok h
  cases h₀
  obtain ⟨hle, rfl⟩ := run_ite_throw_eq_ok h₁
  exact ⟨rfl, not_not.mp hle⟩

theorem setWithdrawVestingRoute_ok {u : Unit}
    (h : (setWithdrawVestingRoute fromAccount toAccount percent autoVest).run s = .ok u s') :
    s' = s.setRoute fromAccount toAccount percent autoVest ∧
      ((s.routes.any fun r => r.key = (fromAccount, toAccount)) = false →
        percent ≠ 0 ∧ s.withdrawRoutes fromAccount < hiveMaxWithdrawRoutes) ∧
      (totalPercent s'.routes fromAccount).toNat ≤ hive100Percent := by
  obtain ⟨s₀, s₁, h₀, h₁⟩ := run_bind_eq_ok h
  cases h₀
  obtain ⟨-, h₂⟩ := run_throw_if_eq_ok h₁
  dsimp only at h₂
  split at h₂
  · -- no route of the key: one is created
    rename_i hfind
    have hany : (s.routes.any fun r => r.key = (fromAccount, toAccount)) = false := by
      simpa using List.find?_eq_none.mp hfind
    obtain ⟨hp, h₃⟩ := run_throw_if_eq_ok h₂
    obtain ⟨hmax, h₄⟩ := run_throw_if_eq_ok h₃
    obtain ⟨⟨⟩, s₂, h₅, h₆⟩ := run_bind_eq_ok h₄
    cases h₅
    obtain ⟨⟨⟩, s₃, h₇, h₈⟩ := run_bind_eq_ok h₆
    cases h₇
    obtain ⟨rfl, hle⟩ := checkTotalPercent_ok h₈
    exact ⟨by simp [RoutesState.setRoute, hany], fun _ => ⟨hp, by omega⟩, hle⟩
  · rename_i r hfind
    have hany : (s.routes.any fun r => r.key = (fromAccount, toAccount)) = true :=
      List.any_eq_true.mpr ⟨r, List.mem_of_find?_eq_some hfind, (List.find?_some hfind :)⟩
    split at h₂
    · -- a route of the key and no percent: it is removed
      rename_i hp
      obtain ⟨⟨⟩, s₂, h₃, h₄⟩ := run_bind_eq_ok h₂
      cases h₃
      obtain ⟨⟨⟩, s₃, h₅, h₆⟩ := run_bind_eq_ok h₄
      cases h₅
      obtain ⟨rfl, hle⟩ := checkTotalPercent_ok h₆
      exact ⟨by simp [RoutesState.setRoute, hany, hp], by simp [hany], hle⟩
    · -- a route of the key and a percent: it is rewritten
      rename_i hp
      obtain ⟨⟨⟩, s₂, h₃, h₄⟩ := run_bind_eq_ok h₂
      cases h₃
      obtain ⟨rfl, hle⟩ := checkTotalPercent_ok h₄
      exact ⟨by simp [RoutesState.setRoute, hany, hp], by simp [hany], hle⟩

/-! ## The invariant -/

theorem toNat_foldl_add {β : Type} (f : β → UInt16) (l : List β) (t : UInt16) :
    (l.foldl (fun t x => t + f x) t).toNat = (t.toNat + (l.map fun x => (f x).toNat).sum) % 2 ^ 16 := by
  induction l generalizing t with
  | nil => simp [Nat.mod_eq_of_lt t.toNat_lt]
  | cons x l ih =>
    rw [List.foldl_cons, ih, UInt16.toNat_add, List.map_cons, List.sum_cons]
    omega

/-- What a route gives to the `total_percent` of `a`. -/
def WithdrawRoute.percentOf (a : Acc) (r : WithdrawRoute Acc) : Nat :=
  if r.fromAccount = a then r.percent.toNat else 0

/-- The percents of the routes of `a`, added without bound. -/
def routesPercent (routes : List (WithdrawRoute Acc)) (a : Acc) : Nat :=
  (routes.map (WithdrawRoute.percentOf a)).sum

theorem totalPercent_toNat (routes : List (WithdrawRoute Acc)) (a : Acc) :
    (totalPercent routes a).toNat = routesPercent routes a % 2 ^ 16 := by
  rw [totalPercent, toNat_foldl_add, sum_map_filter]
  simp only [UInt16.toNat_zero, zero_add, decide_eq_true_eq]
  rfl

/-- Unique keys, `withdraw_routes` counting each account's routes up to the limit, and no
account's routes allocating more than 100%. -/
structure RoutesInv (s : RoutesState Acc) : Prop where
  nodup : (s.routes.map WithdrawRoute.key).Nodup
  counts : Counts WithdrawRoute.fromAccount s.withdrawRoutes s.routes
  routes_le : ∀ a, s.withdrawRoutes a ≤ hiveMaxWithdrawRoutes
  percent_le : ∀ a, routesPercent s.routes a ≤ hive100Percent

theorem exists_route_of_any (h : (s.routes.any fun r => r.key = (fromAccount, toAccount)) = true) :
    ∃ r ∈ s.routes, r.key = (fromAccount, toAccount) := by
  simpa using h

theorem routesPercent_setRoute_le (hnd : (s.routes.map WithdrawRoute.key).Nodup) (a : Acc) :
    routesPercent (s.setRoute fromAccount toAccount percent autoVest).routes a ≤
      routesPercent s.routes a + WithdrawRoute.percentOf a ⟨fromAccount, toAccount, percent, autoVest⟩ := by
  unfold RoutesState.setRoute
  split_ifs with hany hp
  · -- removed: the sum loses the old route's percent
    obtain ⟨r, hr, hkey⟩ := exists_route_of_any hany
    have hsum := sum_filter_key_ne WithdrawRoute.key (WithdrawRoute.percentOf a) hnd hr
    rw [hkey] at hsum
    exact (Nat.le.intro hsum).trans (Nat.le_add_right _ _)
  · -- rewritten: the old route's percent for the new one
    obtain ⟨r, hr, hkey⟩ := exists_route_of_any hany
    have hsum := sum_map_update_key WithdrawRoute.key (WithdrawRoute.percentOf a) hnd hr
      fun _ => ⟨fromAccount, toAccount, percent, autoVest⟩
    rw [hkey] at hsum
    simp only [routesPercent, updateKey]
    omega
  · -- created: the new route's percent is added
    simp [routesPercent, WithdrawRoute.percentOf]

theorem RoutesInv.setRoute (hs : RoutesInv s)
    (hnew : (s.routes.any fun r => r.key = (fromAccount, toAccount)) = false →
      percent ≠ 0 ∧ s.withdrawRoutes fromAccount < hiveMaxWithdrawRoutes)
    (hp : percent.toNat ≤ hive100Percent)
    (hle : (totalPercent (s.setRoute fromAccount toAccount percent autoVest).routes fromAccount).toNat ≤
      hive100Percent) :
    RoutesInv (s.setRoute fromAccount toAccount percent autoVest) := by
  refine ⟨?_, ?_, fun a => ?_, fun a => ?_⟩
  · unfold RoutesState.setRoute
    split_ifs with hany hp0
    · exact hs.nodup.sublist (List.filter_sublist.map _)
    · show ((updateKey WithdrawRoute.key s.routes
        (WithdrawRoute.key ⟨fromAccount, toAccount, percent, autoVest⟩) fun _ =>
          ⟨fromAccount, toAccount, percent, autoVest⟩).map WithdrawRoute.key).Nodup
      rw [map_key_updateKey_const]
      exact hs.nodup
    · refine nodup_map_append_of_fresh _ hs.nodup fun c hc hkey => ?_
      simp only [Bool.not_eq_true, List.any_eq_false, decide_eq_true_eq] at hany
      exact hany c hc hkey
  · unfold RoutesState.setRoute
    split_ifs with hany hp0
    · obtain ⟨r, hr, hkey⟩ := exists_route_of_any hany
      have hfrom : r.fromAccount = fromAccount := congrArg Prod.fst hkey
      have hcount := hs.counts.filter_key hs.nodup hr
      rwa [hkey, hfrom] at hcount
    · obtain ⟨r, hr, hkey⟩ := exists_route_of_any hany
      have hcount := hs.counts.updateKey hs.nodup hr (fun _ => ⟨fromAccount, toAccount, percent, autoVest⟩)
        (congrArg Prod.fst hkey).symm
      rwa [hkey] at hcount
    · exact hs.counts.append ⟨fromAccount, toAccount, percent, autoVest⟩
  · -- only a new route counts up, and only below the limit
    have hold := hs.routes_le a
    unfold RoutesState.setRoute
    split_ifs with hany hp0
    · by_cases ha : a = fromAccount
      · subst ha
        simp only [Function.update_self]
        omega
      · simpa only [Function.update_of_ne ha] using hold
    · exact hold
    · have hlt := (hnew (Bool.of_not_eq_true hany)).2
      by_cases ha : a = fromAccount
      · subst ha
        simp only [Function.update_self]
        omega
      · simpa only [Function.update_of_ne ha] using hold
  · -- the bound: at most two full allocations before the check, so the check sees no wrap
    have hbound : routesPercent (s.setRoute fromAccount toAccount percent autoVest).routes a ≤
        routesPercent s.routes a + WithdrawRoute.percentOf a ⟨fromAccount, toAccount, percent, autoVest⟩ :=
      routesPercent_setRoute_le hs.nodup a
    have hold := hs.percent_le a
    by_cases ha : fromAccount = a
    · subst ha
      rw [totalPercent_toNat] at hle
      have hnew : WithdrawRoute.percentOf fromAccount ⟨fromAccount, toAccount, percent, autoVest⟩ =
          percent.toNat := if_pos rfl
      rw [hnew] at hbound
      have hlt : routesPercent (s.setRoute fromAccount toAccount percent autoVest).routes fromAccount <
          2 ^ 16 := by
        unfold hive100Percent at hold hp
        omega
      rwa [Nat.mod_eq_of_lt hlt] at hle
    · have hnew : WithdrawRoute.percentOf a ⟨fromAccount, toAccount, percent, autoVest⟩ = 0 :=
        if_neg ha
      rw [hnew] at hbound
      omega

theorem SetWithdrawVestingRouteOperation.apply_inv {op : SetWithdrawVestingRouteOperation Acc}
    {u : Unit} (hs : RoutesInv s) (h : op.apply.run s = .ok u s') : RoutesInv s' := by
  unfold SetWithdrawVestingRouteOperation.apply at h
  obtain ⟨hp, h₁⟩ := run_throw_if_eq_ok h
  obtain ⟨rfl, hnew, hle⟩ := setWithdrawVestingRoute_ok h₁
  exact hs.setRoute hnew (not_not.mp hp) hle

theorem SetWithdrawVestingRouteOperation.run_inv (op : SetWithdrawVestingRouteOperation Acc)
    (hs : RoutesInv s) : RoutesInv (op.run s) := by
  unfold SetWithdrawVestingRouteOperation.run
  split
  · rename_i h
    exact SetWithdrawVestingRouteOperation.apply_inv hs h
  · exact hs

theorem SetWithdrawVestingRouteOperation.run_hardfork (op : SetWithdrawVestingRouteOperation Acc)
    (s : RoutesState Acc) : (op.run s).hardfork = s.hardfork := by
  unfold SetWithdrawVestingRouteOperation.run
  split
  · rename_i h
    unfold SetWithdrawVestingRouteOperation.apply at h
    obtain ⟨-, h₁⟩ := run_throw_if_eq_ok h
    rw [(setWithdrawVestingRoute_ok h₁).1]
    unfold RoutesState.setRoute
    split_ifs <;> rfl
  · rfl

theorem runRouteOps_inv (ops : List (SetWithdrawVestingRouteOperation Acc)) :
    ∀ {s : RoutesState Acc}, RoutesInv s → RoutesInv (runRouteOps ops s) := by
  induction ops with
  | nil => exact fun hs => hs
  | cons op ops ih => exact fun hs => ih (op.run_inv hs)

/-- Withdraw routes never split more than the whole withdrawal: from no routes, after any
sequence of `set_withdraw_vesting_route` operations, applied or rejected, every account has
at most `HIVE_MAX_WITHDRAW_ROUTES` routes, one per destination, their percents add up to at
most `HIVE_100_PERCENT`, and the `uint16_t` sum the evaluator checks is that sum, never
wrapped. -/
theorem withdraw_routes_within_limits (ops : List (SetWithdrawVestingRouteOperation Acc)) (hardfork : Nat)
    (treasury a : Acc) :
    let s := runRouteOps ops ⟨hardfork, treasury, [], fun _ => 0⟩
    (s.routes.map WithdrawRoute.key).Nodup ∧
      s.routes.countP (fun r => r.fromAccount = a) ≤ hiveMaxWithdrawRoutes ∧
      routesPercent s.routes a ≤ hive100Percent ∧ (totalPercent s.routes a).toNat = routesPercent s.routes a := by
  intro s
  have hs : RoutesInv s := runRouteOps_inv ops
    ⟨List.nodup_nil, fun _ => rfl, fun _ => Nat.zero_le _, fun _ => Nat.zero_le _⟩
  have hpercent := hs.percent_le a
  refine ⟨hs.nodup, hs.counts a ▸ hs.routes_le a, hpercent, ?_⟩
  rw [totalPercent_toNat, Nat.mod_eq_of_lt (by unfold hive100Percent at hpercent; omega)]

end Chain
end HiveChain
