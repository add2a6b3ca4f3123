import Mathlib.Tactic.Linarith
import HiveChain.Lib.Sorting
import HiveChain.Chain.FeedHistory
import HiveChain.Chain.VestingSpec

/-!
# HiveChain.Chain.FeedHistorySpec

What `update_median_feed` guarantees about the four prices of the feed history.

* Between feed prices (`Price.IsFeed`: HBD for HIVE, positive `int64_t` amounts) the source's
  `operator<` is the order of the fractions `base / quote` (`lt_iff`), so `std::sort` sorts them
  (`sortPrices_sorted`) and the minimum, the median and the maximum of the window come in order.
* `correct_ordered` — raising the median and the maximum to `min_price` keeps that order and
  leaves the median at or above `min_price`, which is the hard cap.
* `updateMedianFeed_ordered` — every call keeps the four prices ordered, so every history
  reached from genesis is (`Reachable.ordered`).
-/

namespace HiveChain
namespace Chain

/-! ## Feed prices and their order -/

/-- A price of HBD in HIVE with positive `int64_t` amounts: every witness feed since
`HIVE_HARDFORK_0_20__409`, and every price `update_median_feed` builds from them. -/
structure Price.IsFeed (p : Price) : Prop where
  base_pos : 0 < p.base.amount
  quote_pos : 0 < p.quote.amount
  base_le : p.base.amount ≤ int64Max
  quote_le : p.quote.amount ≤ int64Max
  base_hbd : p.base.symbol = .hbd
  quote_hive : p.quote.symbol = .hive

instance (p : Price) : Decidable p.IsFeed :=
  decidable_of_iff (0 < p.base.amount ∧ 0 < p.quote.amount ∧ p.base.amount ≤ int64Max ∧ p.quote.amount ≤ int64Max ∧
      p.base.symbol = .hbd ∧ p.quote.symbol = .hive)
    ⟨fun ⟨h₁, h₂, h₃, h₄, h₅, h₆⟩ => ⟨h₁, h₂, h₃, h₄, h₅, h₆⟩, fun ⟨h₁, h₂, h₃, h₄, h₅, h₆⟩ => ⟨h₁, h₂, h₃, h₄, h₅, h₆⟩⟩

theorem uint128_mul_uint128 {x y : Int} (hx : 0 < x) (hx' : x ≤ int64Max) (hy : 0 < y) (hy' : y ≤ int64Max) :
    ((uint128 x * uint128 y % 2 ^ 128 : Nat) : Int) = x * y := by
  unfold int64Max at hx' hy'
  have hux : ((uint128 x : Nat) : Int) = x := by
    unfold uint128
    rw [Int.emod_eq_of_lt hx.le (by omega), Int.toNat_of_nonneg hx.le]
  have huy : ((uint128 y : Nat) : Int) = y := by
    unfold uint128
    rw [Int.emod_eq_of_lt hy.le (by omega), Int.toNat_of_nonneg hy.le]
  have hlt : uint128 x * uint128 y < 2 ^ 128 :=
    calc uint128 x * uint128 y < 2 ^ 64 * 2 ^ 64 := Nat.mul_lt_mul'' (by omega) (by omega)
      _ = 2 ^ 128 := by norm_num
  rw [Nat.mod_eq_of_lt hlt, Nat.cast_mul, hux, huy]

namespace Price

variable {a b c : Price}

theorem symbols_of_isFeed (h : a.IsFeed) : a.symbols = (Protocol.hiveAssetNumHbd, Protocol.hiveAssetNumHive) := by
  simp [symbols, h.base_hbd, h.quote_hive, Symbol.assetNum]

theorem lt_iff (ha : a.IsFeed) (hb : b.IsFeed) :
    a.lt b = true ↔ a.base.amount * b.quote.amount < a.quote.amount * b.base.amount := by
  have hamult : (amult a b : Int) = b.quote.amount * a.base.amount :=
    uint128_mul_uint128 hb.quote_pos hb.quote_le ha.base_pos ha.base_le
  have hbmult : (bmult a b : Int) = a.quote.amount * b.base.amount :=
    uint128_mul_uint128 ha.quote_pos ha.quote_le hb.base_pos hb.base_le
  rw [lt, symbols_of_isFeed ha, symbols_of_isFeed hb, if_neg (not_not.2 rfl), decide_eq_true_iff,
    ← Int.ofNat_lt, hamult, hbmult, Int.mul_comm b.quote.amount]

theorem lt_eq_false_iff (ha : a.IsFeed) (hb : b.IsFeed) : b.lt a = false ↔ a.Le b := by
  rw [← Bool.not_eq_true, lt_iff hb ha, Le, not_lt, Int.mul_comm b.base.amount, Int.mul_comm b.quote.amount]

theorem le_of_lt (ha : a.IsFeed) (hb : b.IsFeed) (h : a.lt b = true) : a.Le b :=
  Int.le_of_lt ((lt_iff ha hb).1 h)

theorem le_refl (a : Price) : a.Le a := by
  rw [Le, Int.mul_comm]

theorem le_total (a b : Price) : a.Le b ∨ b.Le a := by
  rw [Le, Le, Int.mul_comm b.base.amount, Int.mul_comm b.quote.amount]
  exact Int.le_total _ _

theorem le_trans (hab : a.Le b) (hbc : b.Le c) (ha : 0 ≤ a.quote.amount) (hb : 0 < b.quote.amount)
    (hc : 0 ≤ c.quote.amount) : a.Le c := by
  have h₁ : a.base.amount * b.quote.amount * c.quote.amount ≤ a.quote.amount * b.base.amount * c.quote.amount :=
    Int.mul_le_mul_of_nonneg_right hab hc
  have h₂ : a.quote.amount * (b.base.amount * c.quote.amount) ≤ a.quote.amount * (b.quote.amount * c.base.amount) :=
    Int.mul_le_mul_of_nonneg_left hbc ha
  have h₃ : b.quote.amount * (a.base.amount * c.quote.amount) ≤ b.quote.amount * (a.quote.amount * c.base.amount) := by
    linarith
  exact Int.le_of_mul_le_mul_left h₃ hb

theorem le_trans_of_isFeed (hab : a.Le b) (hbc : b.Le c) (ha : a.IsFeed) (hb : b.IsFeed) (hc : c.IsFeed) :
    a.Le c :=
  le_trans hab hbc ha.quote_pos.le hb.quote_pos hc.quote_pos.le

end Price

/-! ## Sorting the feeds -/

theorem sortKey_iff {a b : Price} (ha : a.IsFeed) (hb : b.IsFeed) : (!b.lt a) = true ↔ a.Le b := by
  rw [Bool.not_eq_true', Price.lt_eq_false_iff ha hb]

@[simp] theorem mem_sortPrices {p : Price} {ps : List Price} : p ∈ sortPrices ps ↔ p ∈ ps :=
  List.mem_mergeSort

@[simp] theorem length_sortPrices (ps : List Price) : (sortPrices ps).length = ps.length :=
  List.length_mergeSort _

theorem sortPrices_sorted {ps : List Price} (h : ∀ p ∈ ps, p.IsFeed) : (sortPrices ps).Pairwise Price.Le := by
  have hsorted : (sortPrices ps).Pairwise fun a b => (!b.lt a) = true := Sorting.pairwise_mergeSort_of_mem
    (fun a ha b hb c hc hab hbc => (sortKey_iff (h a ha) (h c hc)).2
      (Price.le_trans_of_isFeed ((sortKey_iff (h a ha) (h b hb)).1 hab) ((sortKey_iff (h b hb) (h c hc)).1 hbc)
        (h a ha) (h b hb) (h c hc)))
    (fun a ha b hb => by
      rcases Price.le_total a b with hab | hba
      · rw [(sortKey_iff (h a ha) (h b hb)).2 hab, Bool.true_or]
      · rw [(sortKey_iff (h b hb) (h a ha)).2 hba, Bool.or_true])
  exact hsorted.imp_of_mem fun ha hb hab =>
    (sortKey_iff (h _ (mem_sortPrices.1 ha)) (h _ (mem_sortPrices.1 hb))).1 hab

/-! ## Building `min_price` -/

namespace ShareType

theorem int64Min_tdiv {a : Int} : int64Min.tdiv a = -(2 ^ 63 / a) := by
  unfold int64Min
  rw [Int.neg_tdiv, Int.tdiv_eq_ediv_of_nonneg (by decide)]

theorem mul_eq_ok {a b c : Int} (ha : 0 < a) (h : mul a b = .ok c) :
    c = a * b ∧ int64Min ≤ a * b ∧ a * b ≤ int64Max := by
  unfold mul at h
  rw [if_pos ha] at h
  split at h
  · -- both factors positive: `a <= INT64_MAX / b`
    rename_i hb
    split at h
    · cases h
    · rename_i hab
      cases h
      rw [Int.tdiv_eq_ediv_of_nonneg (by decide), gt_iff_lt, not_lt, Int.le_ediv_iff_mul_le hb] at hab
      have hpos : 0 < a * b := Int.mul_pos ha hb
      unfold int64Min
      exact ⟨rfl, by omega, hab⟩
  · -- `b <= 0`: `INT64_MIN / a <= b`
    rename_i hb
    split at h
    · cases h
    · rename_i hab
      cases h
      rw [int64Min_tdiv, not_lt] at hab
      have hneg : -b * a ≤ 2 ^ 63 := (Int.le_ediv_iff_mul_le ha).1 (by omega)
      have hnonpos : a * b ≤ 0 := Int.mul_nonpos_of_nonneg_of_nonpos ha.le (by omega)
      unfold int64Min int64Max
      exact ⟨rfl, by linarith, by omega⟩

theorem mul_of_le {a b : Int} (ha : 0 < a) (hlo : int64Min ≤ a * b) (hhi : a * b ≤ int64Max) :
    mul a b = .ok (a * b) := by
  unfold mul
  rw [if_pos ha]
  by_cases hb : 0 < b
  · have hab : a ≤ int64Max / b := (Int.le_ediv_iff_mul_le hb).2 hhi
    rw [if_pos hb, Int.tdiv_eq_ediv_of_nonneg (by decide), if_neg (by omega)]
  · have hab : -b ≤ 2 ^ 63 / a := (Int.le_ediv_iff_mul_le ha).2 (by unfold int64Min at hlo; linarith)
    rw [if_neg hb, int64Min_tdiv, if_neg (by omega)]

end ShareType

theorem Price.make_eq_ok {base quote : Asset} {p : Price} :
    Price.make base quote = .ok p ↔ 0 < base.amount ∧ 0 < quote.amount ∧ base.symbol ≠ quote.symbol ∧ p = ⟨base, quote⟩ := by
  unfold Price.make
  by_cases hb : 0 < base.amount <;> by_cases hq : 0 < quote.amount <;> by_cases hs : base.symbol = quote.symbol <;>
    simp [hb, hq, hs, eq_comm, throw, throwThe, MonadExceptOf.throw, bind, Except.bind,
      pure, Except.pure]

theorem hive100Percent_div_hive1Percent : hive100Percent / hive1Percent = 100 := by decide

theorem minPrice_eq_ok {limit : Nat} {x y : Int} {p : Price} (hl : 0 < limit) (hl' : limit < 100)
    (h : minPrice limit x y = .ok p) :
    p.IsFeed ∧ p.base.amount = ((100 - limit : Nat) : Int) * x ∧ p.quote.amount = limit * y := by
  unfold minPrice at h
  rw [hive100Percent_div_hive1Percent] at h
  obtain ⟨base, hbase, h⟩ := EState.except_bind_eq_ok h
  obtain ⟨quote, hquote, h⟩ := EState.except_bind_eq_ok h
  obtain ⟨rfl, -, hbase'⟩ := ShareType.mul_eq_ok (by omega) hbase
  obtain ⟨rfl, -, hquote'⟩ := ShareType.mul_eq_ok (by omega) hquote
  obtain ⟨hb, hq, -, rfl⟩ := Price.make_eq_ok.1 h
  exact ⟨⟨hb, hq, hbase', hquote', rfl, rfl⟩, rfl, rfl⟩

theorem minPrice_of_le {limit : Nat} {x y : Int} (hl : 0 < limit) (hl' : limit < 100)
    (hx : 0 < ((100 - limit : Nat) : Int) * x) (hx' : ((100 - limit : Nat) : Int) * x ≤ int64Max)
    (hy : 0 < (limit : Int) * y) (hy' : (limit : Int) * y ≤ int64Max) :
    minPrice limit x y = .ok ⟨⟨((100 - limit : Nat) : Int) * x, .hbd⟩, ⟨limit * y, .hive⟩⟩ := by
  have hmin : int64Min ≤ 0 := by decide
  unfold minPrice
  rw [hive100Percent_div_hive1Percent, ShareType.mul_of_le (by omega) (by omega) hx', EState.except_ok_bind,
    ShareType.mul_of_le (by omega) (by omega) hy', EState.except_ok_bind]
  exact Price.make_eq_ok.2 ⟨hx, hy, fun h => Symbol.noConfusion h, rfl⟩

/-! ## The statistics of the window -/

section Window

variable {ps : List Price}

theorem getD_sortPrices_isFeed (h : ∀ p ∈ ps, p.IsFeed) {i : Nat} (hi : i < ps.length) :
    ((sortPrices ps).getD i Price.null).IsFeed :=
  h _ (mem_sortPrices.1 (Sorting.getD_mem _ (by rw [length_sortPrices]; exact hi)))

theorem middle_isFeed (h : ∀ p ∈ ps, p.IsFeed) (hne : ps ≠ []) : (middle (sortPrices ps)).IsFeed := by
  have hlen := List.length_pos_of_ne_nil hne
  exact getD_sortPrices_isFeed h (by rw [length_sortPrices]; omega)

theorem head_le_middle_le_last (h : ∀ p ∈ ps, p.IsFeed) (hne : ps ≠ []) :
    ((sortPrices ps).headD Price.null).Le (middle (sortPrices ps)) ∧
      (middle (sortPrices ps)).Le ((sortPrices ps).getLastD Price.null) := by
  have hsorted := sortPrices_sorted h
  have hlen : 0 < (sortPrices ps).length := by rw [length_sortPrices]; exact List.length_pos_of_ne_nil hne
  have hrefl : ∀ a ∈ sortPrices ps, a.Le a := fun a _ => Price.le_refl a
  rw [Sorting.headD_eq_getD, Sorting.getLastD_eq_getD]
  exact ⟨Sorting.rel_getD_getD hsorted hrefl _ (Nat.zero_le _) (by omega),
    Sorting.rel_getD_getD hsorted hrefl _ (by omega) (by omega)⟩

theorem middle_between {lo hi : Price} (h : ∀ p ∈ ps, p.IsFeed) (hlo : lo.IsFeed) (hhi : hi.IsFeed)
    (hmaj : ps.length / 2 < ps.countP fun p => decide (lo.Le p ∧ p.Le hi)) :
    lo.Le (middle (sortPrices ps)) ∧ (middle (sortPrices ps)).Le hi := by
  have hsorted := sortPrices_sorted h
  have hrefl : ∀ a ∈ sortPrices ps, a.Le a := fun a _ => Price.le_refl a
  have hfeed : ∀ p ∈ sortPrices ps, p.IsFeed := fun p hp => h p (mem_sortPrices.1 hp)
  -- the sort only permutes the prices, so it keeps how many lie in the band
  have hcount : (sortPrices ps).countP (fun p => decide (lo.Le p ∧ p.Le hi)) =
      ps.countP fun p => decide (lo.Le p ∧ p.Le hi) := (List.mergeSort_perm ps _).countP_eq _
  have hlen : ps.length / 2 < ps.length := Nat.lt_of_lt_of_le hmaj List.countP_le_length
  have hmid : (middle (sortPrices ps)).IsFeed := getD_sortPrices_isFeed h (by rw [length_sortPrices]; exact hlen)
  have habove : (sortPrices ps).countP (fun p => decide (lo.Le p ∧ p.Le hi)) ≤
      (sortPrices ps).countP fun p => decide (lo.Le p) :=
    List.countP_mono_left fun x _ hx => by simp_all
  have hbelow : (sortPrices ps).countP (fun p => decide (lo.Le p ∧ p.Le hi)) ≤
      (sortPrices ps).countP fun p => decide (p.Le hi) :=
    List.countP_mono_left fun x _ hx => by simp_all
  constructor
  · exact Sorting.rel_getD_of_lt_countP hsorted hrefl _ (by rw [length_sortPrices]; exact hlen)
      (fun x hx hlx hxm => Price.le_trans_of_isFeed hlx hxm hlo (hfeed x hx) hmid)
      (by rw [length_sortPrices]; omega)
  · exact Sorting.getD_rel_of_lt_countP hsorted hrefl _
      (fun x hx hmx hxh => Price.le_trans_of_isFeed hmx hxh hmid (hfeed x hx) hhi)
      (by rw [length_sortPrices]; omega)

end Window

namespace FeedHistory

variable {fho : FeedHistory}

/-- The four prices of a feed history in the order of fractions: minimum, market median,
median, maximum. -/
structure Ordered (fho : FeedHistory) : Prop where
  min_le_market : fho.currentMinHistory.Le fho.marketMedianHistory
  market_le_median : fho.marketMedianHistory.Le fho.currentMedianHistory
  median_le_max : fho.currentMedianHistory.Le fho.currentMaxHistory

@[simp] theorem takeStats_priceHistory : fho.takeStats.priceHistory = fho.priceHistory := rfl

@[simp] theorem takeStats_marketMedianHistory :
    fho.takeStats.marketMedianHistory = middle (sortPrices fho.priceHistory) := rfl

@[simp] theorem takeStats_currentMedianHistory :
    fho.takeStats.currentMedianHistory = middle (sortPrices fho.priceHistory) := rfl

theorem takeStats_ordered (h : ∀ p ∈ fho.priceHistory, p.IsFeed) (hne : fho.priceHistory ≠ []) :
    fho.takeStats.Ordered ∧ fho.takeStats.currentMedianHistory.IsFeed ∧ fho.takeStats.currentMaxHistory.IsFeed := by
  obtain ⟨hmin, hmax⟩ := head_le_middle_le_last h hne
  have hlen := List.length_pos_of_ne_nil hne
  refine ⟨⟨hmin, Price.le_refl _, hmax⟩, middle_isFeed h hne, ?_⟩
  show ((sortPrices fho.priceHistory).getLastD Price.null).IsFeed
  rw [Sorting.getLastD_eq_getD]
  exact getD_sortPrices_isFeed h (by rw [length_sortPrices]; omega)

theorem correct_eq (p : Price) (fho : FeedHistory) :
    fho.correct p =
      { fho with
        currentMedianHistory := if fho.currentMedianHistory.lt p then p else fho.currentMedianHistory
        currentMaxHistory := if fho.currentMaxHistory.lt p then p else fho.currentMaxHistory } := by
  unfold correct
  by_cases hm : fho.currentMedianHistory.lt p <;> by_cases hx : fho.currentMaxHistory.lt p <;> simp [hm, hx]

@[simp] theorem correct_priceHistory (p : Price) : (fho.correct p).priceHistory = fho.priceHistory := by
  rw [correct_eq]

@[simp] theorem correct_marketMedianHistory (p : Price) :
    (fho.correct p).marketMedianHistory = fho.marketMedianHistory := by
  rw [correct_eq]

theorem correct_ordered {p : Price} (hp : p.IsFeed) (ho : fho.Ordered) (hmarket : fho.marketMedianHistory.IsFeed)
    (hmedian : fho.currentMedianHistory.IsFeed) (hmax : fho.currentMaxHistory.IsFeed) :
    (fho.correct p).Ordered ∧ p.Le (fho.correct p).currentMedianHistory := by
  rw [correct_eq]
  by_cases hm : fho.currentMedianHistory.lt p = true
  · -- the median is raised to `min_price`, which then bounds the maximum too
    have hmp : fho.currentMedianHistory.Le p := Price.le_of_lt hmedian hp hm
    have hmarket_le : fho.marketMedianHistory.Le p :=
      Price.le_trans_of_isFeed ho.market_le_median hmp hmarket hmedian hp
    by_cases hx : fho.currentMaxHistory.lt p = true
    · simp only [hm, hx, if_true]
      exact ⟨⟨ho.min_le_market, hmarket_le, Price.le_refl p⟩, Price.le_refl p⟩
    · have hpx : p.Le fho.currentMaxHistory := (Price.lt_eq_false_iff hp hmax).1 (Bool.eq_false_iff.2 hx)
      simp only [hm, hx, if_true, Bool.false_eq_true, if_false]
      exact ⟨⟨ho.min_le_market, hmarket_le, hpx⟩, Price.le_refl p⟩
  · -- the median stays, at or above `min_price`
    have hpm : p.Le fho.currentMedianHistory := (Price.lt_eq_false_iff hp hmedian).1 (Bool.eq_false_iff.2 hm)
    by_cases hx : fho.currentMaxHistory.lt p = true
    · have hxp : fho.currentMaxHistory.Le p := Price.le_of_lt hmax hp hx
      simp only [hm, hx, if_true, Bool.false_eq_true, if_false]
      exact ⟨⟨ho.min_le_market, ho.market_le_median,
        Price.le_trans_of_isFeed ho.median_le_max hxp hmedian hmax hp⟩, hpm⟩
    · simp only [hm, hx, Bool.false_eq_true, if_false]
      exact ⟨ho, hpm⟩

end FeedHistory

/-! ## The chain's parameters -/

namespace FeedChain

variable {c : FeedChain}

theorem feedHistoryWindow_pos (c : FeedChain) : 0 < c.feedHistoryWindow := by
  unfold feedHistoryWindow
  split <;> decide

theorem feedHistoryWindow_of_hf16 (h : 16 ≤ c.hardfork) : c.feedHistoryWindow = hiveFeedHistoryWindow := by
  unfold feedHistoryWindow hasHardfork
  rw [if_pos (decide_eq_true h)]

theorem limit_pos (c : FeedChain) : 0 < c.limit ∧ c.limit < 100 := by
  unfold limit
  split <;> decide

theorem limit_of_hf26 (h : 26 ≤ c.hardfork) : c.limit = hiveHbdHardLimit / hive1Percent := by
  unfold limit hasHardfork
  rw [if_pos (decide_eq_true h)]

theorem hbdSupply_of_hf25 (h : 25 ≤ c.hardfork) :
    c.hbdSupply = ShareType.sub c.currentHbdSupply c.treasuryHbdBalance := by
  unfold hbdSupply hasHardfork
  rw [if_pos (decide_eq_true h)]

end FeedChain

/-! ## One update -/

theorem pushHistory_ne_nil {window : Nat} (hw : 0 < window) (priceHistory : List Price) (p : Price) :
    pushHistory window priceHistory p ≠ [] := by
  unfold pushHistory
  dsimp only
  split
  · rename_i hlen
    intro h
    have hl := congrArg List.length h
    simp only [List.length_drop, List.length_append, List.length_singleton, List.length_nil] at hl hlen
    omega
  · simp

theorem mem_pushHistory {window : Nat} {priceHistory : List Price} {p q : Price}
    (hq : q ∈ pushHistory window priceHistory p) : q ∈ priceHistory ∨ q = p := by
  unfold pushHistory at hq
  dsimp only at hq
  split at hq
  · simpa using List.mem_of_mem_drop hq
  · simpa using hq

theorem getLast?_pushHistory {window : Nat} (hw : 0 < window) (priceHistory : List Price) (p : Price) :
    (pushHistory window priceHistory p).getLast? = some p := by
  unfold pushHistory
  dsimp only
  split
  · rename_i hlen
    have hne : 1 ≤ priceHistory.length := by simp at hlen; omega
    rw [List.drop_append_of_le_length hne]
    simp
  · simp

namespace FeedHistory

variable {c : FeedChain} {medianFeed : Price} {fho fho' : FeedHistory}

/-- The history with the median of the feeds pushed into its window. -/
def pushed (c : FeedChain) (medianFeed : Price) (fho : FeedHistory) : FeedHistory :=
  { fho with priceHistory := pushHistory c.feedHistoryWindow fho.priceHistory medianFeed }

theorem modify_eq (c : FeedChain) (medianFeed : Price) (fho : FeedHistory) :
    fho.modify c medianFeed =
      if c.hasHardfork 14 then
        c.hbdSupply >>= fun x =>
          if 0 < x then minPrice c.limit x c.currentSupply >>= fun p => pure ((pushed c medianFeed fho).takeStats.correct p)
          else pure (pushed c medianFeed fho).takeStats
      else pure (pushed c medianFeed fho).takeStats := by
  unfold FeedHistory.modify
  simp only [pushHistory_ne_nil (FeedChain.feedHistoryWindow_pos c), if_false]
  rfl

theorem modify_eq_ok (h : fho.modify c medianFeed = .ok fho') :
    (fho' = (pushed c medianFeed fho).takeStats ∧ ∀ x, c.hasHardfork 14 → c.hbdSupply = .ok x → x ≤ 0) ∨
      ∃ x p, c.hasHardfork 14 ∧ c.hbdSupply = .ok x ∧ 0 < x ∧ minPrice c.limit x c.currentSupply = .ok p ∧
        fho' = (pushed c medianFeed fho).takeStats.correct p := by
  rw [modify_eq] at h
  split at h
  · rename_i h14
    obtain ⟨x, hx, h⟩ := EState.except_bind_eq_ok h
    split at h
    · rename_i hpos
      obtain ⟨p, hp, h⟩ := EState.except_bind_eq_ok h
      cases h
      exact .inr ⟨x, p, h14, hx, hpos, hp, rfl⟩
    · rename_i hpos
      cases h
      refine .inl ⟨rfl, fun y _ hy => ?_⟩
      rw [hx] at hy
      cases hy
      omega
  · rename_i h14
    cases h
    exact .inl ⟨rfl, fun _ h => absurd h h14⟩

theorem modify_of_minPrice {x : Int} (hx : c.hbdSupply = .ok x)
    (hp : 0 < x → ∃ p, minPrice c.limit x c.currentSupply = .ok p) : ∃ fho', fho.modify c medianFeed = .ok fho' := by
  rw [modify_eq]
  split
  · rw [hx, EState.except_ok_bind]
    split
    · rename_i hpos
      obtain ⟨p, hp⟩ := hp hpos
      rw [hp, EState.except_ok_bind]
      exact ⟨_, rfl⟩
    · exact ⟨_, rfl⟩
  · exact ⟨_, rfl⟩

theorem modify_hbdSupply (h14 : c.hasHardfork 14) (h : fho.modify c medianFeed = .ok fho') :
    ∃ x, c.hbdSupply = .ok x := by
  rw [modify_eq, if_pos h14] at h
  obtain ⟨x, hx, -⟩ := EState.except_bind_eq_ok h
  exact ⟨x, hx⟩

/-- What `update_median_feed` keeps: the window holds feed prices and the four prices are in
order. -/
structure Inv (fho : FeedHistory) : Prop where
  history : ∀ p ∈ fho.priceHistory, p.IsFeed
  ordered : fho.Ordered

theorem modify_inv (hfeed : medianFeed.IsFeed) (hhist : ∀ p ∈ fho.priceHistory, p.IsFeed)
    (h : fho.modify c medianFeed = .ok fho') :
    fho'.Inv ∧ fho'.priceHistory = pushHistory c.feedHistoryWindow fho.priceHistory medianFeed ∧
      fho'.marketMedianHistory = middle (sortPrices fho'.priceHistory) ∧
      ∀ x, c.hasHardfork 14 → c.hbdSupply = .ok x → 0 < x →
        ∃ p, minPrice c.limit x c.currentSupply = .ok p ∧ p.Le fho'.currentMedianHistory := by
  have hwin : ∀ p ∈ (pushed c medianFeed fho).priceHistory, p.IsFeed := fun p hp =>
    (mem_pushHistory hp).elim (hhist p) fun h => h ▸ hfeed
  have hne : (pushed c medianFeed fho).priceHistory ≠ [] := pushHistory_ne_nil c.feedHistoryWindow_pos _ _
  obtain ⟨hord, hmedian, hmax⟩ := takeStats_ordered hwin hne
  rcases modify_eq_ok h with ⟨rfl, hnone⟩ | ⟨x, p, -, hx, -, hp, rfl⟩
  · -- no correction: the statistics as taken
    exact ⟨⟨hwin, hord⟩, rfl, rfl, fun y h14 hy hpos => absurd (hnone y h14 hy) (by omega)⟩
  · -- corrected by `min_price`, which is a feed price
    obtain ⟨hpfeed, -, -⟩ := minPrice_eq_ok c.limit_pos.1 c.limit_pos.2 hp
    obtain ⟨hord', hle⟩ := correct_ordered hpfeed hord hmedian hmedian hmax
    refine ⟨⟨by simpa using hwin, hord'⟩, by simp [pushed], by simp, fun y _ hy _ => ?_⟩
    rw [hx] at hy
    cases hy
    exact ⟨p, hp, hle⟩

end FeedHistory

/-! ## Whole runs -/

section Update

variable {c : FeedChain} {fho fho' : FeedHistory}

theorem updateMedianFeed_of_not_due (h : c.headBlockNum % hiveFeedIntervalBlocks ≠ 0) :
    updateMedianFeed c fho = .ok fho := by
  unfold updateMedianFeed
  rw [if_pos h]
  rfl

theorem updateMedianFeed_of_few (hdue : c.headBlockNum % hiveFeedIntervalBlocks = 0)
    (h : c.feeds.length < hiveMinFeeds) : updateMedianFeed c fho = .ok fho := by
  unfold updateMedianFeed
  rw [if_neg (not_not.2 hdue), if_neg (by omega)]
  rfl

theorem updateMedianFeed_of_due (hdue : c.headBlockNum % hiveFeedIntervalBlocks = 0)
    (h : hiveMinFeeds ≤ c.feeds.length) : updateMedianFeed c fho = fho.modify c (middle (sortPrices c.feeds)) := by
  unfold updateMedianFeed
  rw [if_neg (not_not.2 hdue), if_pos h]

theorem updateMedianFeed_inv (hfeeds : ∀ p ∈ c.feeds, p.IsFeed) (hinv : fho.Inv)
    (h : updateMedianFeed c fho = .ok fho') : fho'.Inv := by
  by_cases hdue : c.headBlockNum % hiveFeedIntervalBlocks = 0
  · by_cases hmin : hiveMinFeeds ≤ c.feeds.length
    · rw [updateMedianFeed_of_due hdue hmin] at h
      have hne : c.feeds ≠ [] := List.ne_nil_of_length_pos (by unfold hiveMinFeeds hiveMaxWitnesses at hmin; omega)
      exact (FeedHistory.modify_inv (middle_isFeed hfeeds hne) hinv.history h).1
    · rw [updateMedianFeed_of_few hdue (by omega)] at h
      cases h
      exact hinv
  · rw [updateMedianFeed_of_not_due hdue] at h
    cases h
    exact hinv

theorem genesis_inv : FeedHistory.genesis.Inv :=
  ⟨fun _ h => absurd h List.not_mem_nil, ⟨Price.le_refl _, Price.le_refl _, Price.le_refl _⟩⟩

/-- The feed histories reached from a main-network genesis by `update_median_feed` with feeds of
HBD in HIVE. -/
inductive FeedHistory.Reachable : FeedHistory → Prop
  | genesis : Reachable FeedHistory.genesis
  | update {c : FeedChain} {fho fho' : FeedHistory} :
      Reachable fho → (∀ p ∈ c.feeds, p.IsFeed) → updateMedianFeed c fho = .ok fho' → Reachable fho'

theorem FeedHistory.Reachable.inv (h : fho.Reachable) : fho.Inv := by
  induction h with
  | genesis => exact genesis_inv
  | update _ hfeeds hstep ih => exact updateMedianFeed_inv hfeeds ih hstep

end Update

/-! ## The median feed and the hard cap -/

/-- The median feed and the HBD hard cap. Every reachable feed history has its four prices in
order. At a block after `HIVE_HARDFORK_1_26` where the median is recomputed, for every window of
feed prices and every supply, with `X` the HBD supply less the treasury's and `Y` the HIVE
supply: the call returns when `X` fits `int64_t` and, if `X` is positive, the two amounts of
`min_price` are positive and fit; and whenever it returns, the median feed has joined the
window, the four prices are in order, the market median is the median of the window, and for
positive `X` and `Y` the median `p` has `(100% - L) * X * p.quote ≤ L * Y * p.base`. -/
theorem median_feed_hard_cap :
    (∀ fho : FeedHistory, fho.Reachable → fho.Ordered) ∧
    ∀ (c : FeedChain) (fho : FeedHistory), 26 ≤ c.hardfork → (∀ p ∈ c.feeds, p.IsFeed) →
      (∀ p ∈ fho.priceHistory, p.IsFeed) → c.headBlockNum % hiveFeedIntervalBlocks = 0 →
      hiveMinFeeds ≤ c.feeds.length →
      (int64Min ≤ c.currentHbdSupply - c.treasuryHbdBalance → c.currentHbdSupply - c.treasuryHbdBalance ≤ int64Max →
        (0 < c.currentHbdSupply - c.treasuryHbdBalance →
          ((100 - hiveHbdHardLimit / hive1Percent : Nat) : Int) * (c.currentHbdSupply - c.treasuryHbdBalance) ≤
            int64Max ∧
          0 < c.currentSupply ∧ ((hiveHbdHardLimit / hive1Percent : Nat) : Int) * c.currentSupply ≤ int64Max) →
        ∃ fho', updateMedianFeed c fho = .ok fho') ∧
      ∀ fho', updateMedianFeed c fho = .ok fho' →
        fho'.Ordered ∧
        fho'.priceHistory = pushHistory hiveFeedHistoryWindow fho.priceHistory (middle (sortPrices c.feeds)) ∧
        fho'.marketMedianHistory = middle (sortPrices fho'.priceHistory) ∧
        (0 < c.currentHbdSupply - c.treasuryHbdBalance → 0 < c.currentSupply →
          ((hive100Percent - hiveHbdHardLimit : Nat) : Int) * (c.currentHbdSupply - c.treasuryHbdBalance) *
              fho'.currentMedianHistory.quote.amount ≤
            (hiveHbdHardLimit : Int) * c.currentSupply * fho'.currentMedianHistory.base.amount) := by
  refine ⟨fun fho h => h.inv.ordered, fun c fho hf hfeeds hhist hdue hmin => ?_⟩
  have hne : c.feeds ≠ [] := List.ne_nil_of_length_pos (by unfold hiveMinFeeds hiveMaxWitnesses at hmin; omega)
  have h14 : c.hasHardfork 14 := decide_eq_true (by omega)
  have hlimit : c.limit = 30 := by rw [FeedChain.limit_of_hf26 hf]; decide
  have hsupply : ∀ x, c.hbdSupply = .ok x → x = c.currentHbdSupply - c.treasuryHbdBalance := fun x hx =>
    ShareType.sub_eq_ok (by rwa [FeedChain.hbdSupply_of_hf25 (by omega)] at hx)
  rw [updateMedianFeed_of_due hdue hmin]
  refine ⟨fun hlo hhi hfit => ?_, fun fho' h => ?_⟩
  · -- the call returns: the subtraction fits, and so does `min_price` when it is built
    have hx : c.hbdSupply = .ok (c.currentHbdSupply - c.treasuryHbdBalance) := by
      rw [FeedChain.hbdSupply_of_hf25 (by omega)]
      exact ShareType.sub_of_le hlo hhi
    refine FeedHistory.modify_of_minPrice hx fun hpos => ?_
    obtain ⟨h70, hY, h30⟩ := hfit hpos
    have h70' : ((100 - hiveHbdHardLimit / hive1Percent : Nat) : Int) = 70 := by decide
    have h30' : ((hiveHbdHardLimit / hive1Percent : Nat) : Int) = 30 := by decide
    rw [h70'] at h70
    rw [h30'] at h30
    rw [hlimit]
    exact ⟨_, minPrice_of_le (by decide) (by decide) (by push_cast; omega) (by push_cast; omega)
      (by push_cast; omega) (by push_cast; omega)⟩
  · obtain ⟨hinv, hhist', hmarket, hcap⟩ := FeedHistory.modify_inv (middle_isFeed hfeeds hne) hhist h
    refine ⟨hinv.ordered, by rw [hhist', FeedChain.feedHistoryWindow_of_hf16 (by omega)], hmarket,
      fun hX _ => ?_⟩
    -- the median is at or above `min_price`, which puts HBD at `L` of the market cap
    obtain ⟨x, hx⟩ := FeedHistory.modify_hbdSupply h14 h
    obtain rfl := hsupply x hx
    obtain ⟨p, hp, hle⟩ := hcap _ h14 hx hX
    obtain ⟨-, hbase, hquote⟩ := minPrice_eq_ok c.limit_pos.1 c.limit_pos.2 hp
    have hcross := hle
    unfold Price.Le at hcross
    rw [hbase, hquote, hlimit] at hcross
    have h7000 : ((hive100Percent - hiveHbdHardLimit : Nat) : Int) = 100 * 70 := by decide
    have h3000 : (hiveHbdHardLimit : Int) = 100 * 30 := by decide
    rw [h7000, h3000]
    push_cast at hcross
    linarith

theorem median_feed_hard_cap_sample :
    ∃ fho', updateMedianFeed ⟨1200, 100, 26, List.replicate 7 ⟨⟨⟨1, .hbd⟩, ⟨4, .hive⟩⟩, 50⟩, 30, 100, 0⟩
      FeedHistory.genesis = .ok fho' :=
  (median_feed_hard_cap.2 ⟨1200, 100, 26, List.replicate 7 ⟨⟨⟨1, .hbd⟩, ⟨4, .hive⟩⟩, 50⟩, 30, 100, 0⟩
    FeedHistory.genesis (by decide) (by decide) (by decide) (by decide) (by decide)).1 (by decide) (by decide)
    (by decide)

/-! ## A majority of witnesses bounds the medians -/

/-- A strict majority of witnesses decides where the median feed lies. At a block where the
median is recomputed from feed prices, if more than half of the counted feeds lie between two
feed prices, the price that `update_median_feed` appends to the history lies between them; and if
more than half of the new window does, so does the market median. -/
theorem median_follows_majority {c : FeedChain} {fho fho' : FeedHistory} {lo hi : Price} (hlo : lo.IsFeed)
    (hhi : hi.IsFeed) (hfeeds : ∀ p ∈ c.feeds, p.IsFeed) (hhist : ∀ p ∈ fho.priceHistory, p.IsFeed)
    (hdue : c.headBlockNum % hiveFeedIntervalBlocks = 0) (hmin : hiveMinFeeds ≤ c.feeds.length)
    (h : updateMedianFeed c fho = .ok fho') :
    (c.feeds.length / 2 < c.feeds.countP (fun p => decide (lo.Le p ∧ p.Le hi)) →
      ∃ p, fho'.priceHistory.getLast? = some p ∧ lo.Le p ∧ p.Le hi) ∧
    (fho'.priceHistory.length / 2 < fho'.priceHistory.countP (fun p => decide (lo.Le p ∧ p.Le hi)) →
      lo.Le fho'.marketMedianHistory ∧ fho'.marketMedianHistory.Le hi) := by
  have hne : c.feeds ≠ [] := List.ne_nil_of_length_pos (by unfold hiveMinFeeds hiveMaxWitnesses at hmin; omega)
  rw [updateMedianFeed_of_due hdue hmin] at h
  obtain ⟨hinv, hhist', hmarket, -⟩ := FeedHistory.modify_inv (middle_isFeed hfeeds hne) hhist h
  refine ⟨fun hmaj => ⟨_, ?_, middle_between hfeeds hlo hhi hmaj⟩, fun hmaj => ?_⟩
  · rw [hhist', getLast?_pushHistory c.feedHistoryWindow_pos]
  · -- the market median is never corrected: it is the median of the new window
    rw [hmarket]
    exact middle_between hinv.history hlo hhi hmaj

def feedMajoritySample : FeedChain :=
  ⟨1200, 100, 26, [⟨⟨⟨1, .hbd⟩, ⟨3, .hive⟩⟩, 50⟩, ⟨⟨⟨1, .hbd⟩, ⟨4, .hive⟩⟩, 50⟩, ⟨⟨⟨1, .hbd⟩, ⟨4, .hive⟩⟩, 50⟩,
    ⟨⟨⟨1, .hbd⟩, ⟨9, .hive⟩⟩, 50⟩, ⟨⟨⟨1, .hbd⟩, ⟨4, .hive⟩⟩, 50⟩, ⟨⟨⟨1, .hbd⟩, ⟨4, .hive⟩⟩, 50⟩,
    ⟨⟨⟨1, .hbd⟩, ⟨4, .hive⟩⟩, 50⟩], 30, 100, 0⟩

theorem median_follows_majority_sample :
    ∃ fho', updateMedianFeed feedMajoritySample FeedHistory.genesis = .ok fho' ∧
      (feedMajoritySample.feeds.length / 2 < feedMajoritySample.feeds.countP
          (fun p => decide (Price.Le ⟨⟨1, .hbd⟩, ⟨4, .hive⟩⟩ p ∧ p.Le ⟨⟨1, .hbd⟩, ⟨4, .hive⟩⟩)) →
        ∃ p, fho'.priceHistory.getLast? = some p ∧ Price.Le ⟨⟨1, .hbd⟩, ⟨4, .hive⟩⟩ p ∧ p.Le ⟨⟨1, .hbd⟩, ⟨4, .hive⟩⟩) ∧
      (fho'.priceHistory.length / 2 < fho'.priceHistory.countP
          (fun p => decide (Price.Le ⟨⟨1, .hbd⟩, ⟨4, .hive⟩⟩ p ∧ p.Le ⟨⟨1, .hbd⟩, ⟨4, .hive⟩⟩)) →
        Price.Le ⟨⟨1, .hbd⟩, ⟨4, .hive⟩⟩ fho'.marketMedianHistory ∧
          fho'.marketMedianHistory.Le ⟨⟨1, .hbd⟩, ⟨4, .hive⟩⟩) :=
  ⟨_, rfl, @median_follows_majority feedMajoritySample FeedHistory.genesis _ _ _ (by decide) (by decide) (by decide)
    (by decide) (by decide) (by decide) rfl⟩

end Chain
end HiveChain
