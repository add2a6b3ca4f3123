import HiveChain.Chain.Market
import HiveChain.Chain.Vesting
import HiveChain.Protocol.AssetSymbol

/-!
# HiveChain.Chain.FeedHistory

`database::update_median_feed` (`chain/database.cpp`): once every `HIVE_FEED_INTERVAL_BLOCKS`
the median of the scheduled witnesses' price feeds joins the feed history, whose median, minimum
and maximum are then taken again; from `HIVE_HARDFORK_0_14__230` the median and the maximum are
raised to the price at which HBD makes up `HIVE_HBD_HARD_LIMIT` of the combined market cap.

* Prices compare as `DEFINE_PRICE_COMPARISON_OPERATOR` in `protocol/asset.cpp` makes them: by
  the asset numbers of their symbols, then by two `uint128_t` products.
* `std::sort` is not stable; `List.mergeSort` by `!(b < a)` stands for it. What
  `FeedHistorySpec` proves uses only that its output is a sorted permutation of its input.
* The feed interval and the feed age are the main-network values.
* The `system_warning_operation` pushed with a correction, and the test-net
  `skip_price_feed_limit_check`, are not modelled.
* The function runs in `Except String`: the `safe< int64_t >` products and the treasury
  subtraction throw on overflow, and the `price` constructor throws when `validate` fails.
* A constant of the source keeps its macro's name, in camel case (`HIVE_100_PERCENT` is
  `hive100Percent`).
-/

namespace HiveChain
namespace Chain

/-- `asset_symbol_type::asset_num` of the two symbols of the market. -/
def Symbol.assetNum : Symbol → Nat
  | .hive => Protocol.hiveAssetNumHive
  | .hbd => Protocol.hiveAssetNumHbd

namespace Price

/-- `std::tie( base.symbol, quote.symbol )`, as asset numbers. -/
def symbols (p : Price) : Nat × Nat := (p.base.symbol.assetNum, p.quote.symbol.assetNum)

/-- `amult` of `DEFINE_PRICE_COMPARISON_OPERATOR`: `b.quote * a.base` in `uint128_t`. -/
def amult (a b : Price) : Nat := uint128 b.quote.amount * uint128 a.base.amount % 2 ^ 128

/-- `bmult` of `DEFINE_PRICE_COMPARISON_OPERATOR`: `a.quote * b.base` in `uint128_t`. -/
def bmult (a b : Price) : Nat := uint128 a.quote.amount * uint128 b.base.amount % 2 ^ 128

/-- `operator<( price, price )`. The source's `a > b` is the same test as `b < a`. -/
def lt (a b : Price) : Bool :=
  if a.symbols ≠ b.symbols then
    decide (a.symbols.1 < b.symbols.1 ∨ a.symbols.1 = b.symbols.1 ∧ a.symbols.2 < b.symbols.2)
  else decide (amult a b < bmult a b)

/-- `operator==( price, price )`. -/
def eq (a b : Price) : Bool :=
  if a.symbols ≠ b.symbols then false else decide (amult a b = bmult a b)

/-- `price()`: no HIVE for no HIVE. -/
def null : Price := ⟨⟨0, .hive⟩, ⟨0, .hive⟩⟩

/-- `price::is_null`. -/
def isNull (p : Price) : Bool := p.eq null

/-- `price( base, quote )`, which calls `validate`. -/
def make (base quote : Asset) : Except String Price := do
  unless base.amount > 0 do throw "base.amount > share_type(0)"
  unless quote.amount > 0 do throw "quote.amount > share_type(0)"
  unless base.symbol ≠ quote.symbol do throw "base.symbol != quote.symbol"
  pure ⟨base, quote⟩

end Price

namespace ShareType

/-- `safe< int64_t >::operator*`: the overflow tests of the source, with the truncating
division of C++. -/
def mul (a b : Int) : Except String Int :=
  if 0 < a then
    if 0 < b then
      if a > int64Max.tdiv b then .error "overflow_exception" else .ok (a * b)
    else if b < int64Min.tdiv a then .error "underflow_exception" else .ok (a * b)
  else if 0 < b then
    if a < int64Min.tdiv b then .error "underflow_exception" else .ok (a * b)
  else if a ≠ 0 ∧ b < int64Max.tdiv a then .error "overflow_exception" else .ok (a * b)

end ShareType

def hiveBlockInterval : Nat := 3

/-- `HIVE_FEED_INTERVAL_BLOCKS`: `HIVE_BLOCKS_PER_HOUR` on the main network. -/
def hiveFeedIntervalBlocks : Nat := 60 * 60 / hiveBlockInterval

/-- `HIVE_MAX_FEED_AGE_SECONDS` on the main network. -/
def hiveMaxFeedAgeSeconds : Nat := 60 * 60 * 24 * 7

def hiveMaxWitnesses : Nat := 21

def hiveMinFeeds : Nat := hiveMaxWitnesses / 3

def hiveFeedHistoryWindowPreHf16 : Nat := 24 * 7

def hiveFeedHistoryWindow : Nat := 12 * 7

def hive1Percent : Nat := hive100Percent / 100

def hiveHbdHardLimitPreHf26 : Nat := 10 * hive1Percent

def hiveHbdHardLimit : Nat := 30 * hive1Percent

/-- What `update_median_feed` reads of a scheduled witness. -/
structure WitnessFeed where
  hbdExchangeRate : Price
  lastHbdExchangeUpdate : Nat
deriving DecidableEq, Repr

/-- `feed_history_object`. -/
structure FeedHistory where
  currentMedianHistory : Price
  marketMedianHistory : Price
  currentMinHistory : Price
  currentMaxHistory : Price
  priceHistory : List Price
deriving DecidableEq, Repr

/-- The `feed_history_object` of a main-network genesis: default prices, no history. -/
def FeedHistory.genesis : FeedHistory := ⟨Price.null, Price.null, Price.null, Price.null, []⟩

/-- What else of the chain `update_median_feed` reads. -/
structure FeedChain where
  headBlockNum : Nat
  headBlockTime : Nat
  /-- the last hardfork applied -/
  hardfork : Nat
  /-- `current_shuffled_witnesses[ 0 .. num_scheduled_witnesses )`, in order -/
  witnesses : List WitnessFeed
  currentHbdSupply : Int
  currentSupply : Int
  treasuryHbdBalance : Int
deriving DecidableEq, Repr

namespace FeedChain

def hasHardfork (c : FeedChain) (n : Nat) : Bool := decide (n ≤ c.hardfork)

/-- Whether the feed of a scheduled witness counts: recent, and not null. -/
def feedCounts (c : FeedChain) (w : WitnessFeed) : Bool :=
  if c.hasHardfork 19 then
    decide (c.headBlockTime < w.lastHbdExchangeUpdate + hiveMaxFeedAgeSeconds) && !w.hbdExchangeRate.isNull
  else decide (w.lastHbdExchangeUpdate < c.headBlockTime + hiveMaxFeedAgeSeconds) && !w.hbdExchangeRate.isNull

/-- `feeds`: the counted feeds of the scheduled witnesses, in schedule order. -/
def feeds (c : FeedChain) : List Price :=
  (c.witnesses.filter c.feedCounts).map WitnessFeed.hbdExchangeRate

/-- The length of the history window. -/
def feedHistoryWindow (c : FeedChain) : Nat :=
  if c.hasHardfork 16 then hiveFeedHistoryWindow else hiveFeedHistoryWindowPreHf16

/-- `hbd_supply`: the current HBD supply, without the treasury's HBD from
`HIVE_HARDFORK_1_25_HBD_HARD_CAP`. -/
def hbdSupply (c : FeedChain) : Except String Int :=
  if c.hasHardfork 25 then ShareType.sub c.currentHbdSupply c.treasuryHbdBalance else pure c.currentHbdSupply

/-- `limit`: the hard limit in whole percent. -/
def limit (c : FeedChain) : Nat :=
  (if c.hasHardfork 26 then hiveHbdHardLimit else hiveHbdHardLimitPreHf26) / hive1Percent

end FeedChain

/-- `std::sort` by `operator<`. -/
def sortPrices (ps : List Price) : List Price := ps.mergeSort fun a b => !b.lt a

/-- `v[ v.size() / 2 ]`. -/
def middle (ps : List Price) : Price := ps.getD (ps.length / 2) Price.null

/-- `price_history.push_back`, then one `pop_front` past the window. -/
def pushHistory (window : Nat) (priceHistory : List Price) (p : Price) : List Price :=
  let priceHistory := priceHistory ++ [p]
  if priceHistory.length > window then priceHistory.drop 1 else priceHistory

/-- `min_price`: `(100 - limit) * hbd_supply` HBD for `limit * current_supply` HIVE, the price at
which the HBD supply is `limit` percent of the combined market cap. -/
def minPrice (limit : Nat) (hbdSupply currentSupply : Int) : Except String Price := do
  let base ← ShareType.mul ((hive100Percent / hive1Percent - limit : Nat) : Int) hbdSupply
  let quote ← ShareType.mul (limit : Int) currentSupply
  Price.make ⟨base, .hbd⟩ ⟨quote, .hive⟩

namespace FeedHistory

/-- The median, minimum and maximum of the history, by a sorted copy. -/
def takeStats (fho : FeedHistory) : FeedHistory :=
  let copy := sortPrices fho.priceHistory
  { fho with
    currentMedianHistory := middle copy
    marketMedianHistory := middle copy
    currentMinHistory := copy.headD Price.null
    currentMaxHistory := copy.getLastD Price.null }

/-- The hard-cap correction: `min_price` replaces the median and the maximum below it; the
market median is never changed. -/
def correct (minPrice : Price) (fho : FeedHistory) : FeedHistory :=
  let fho := if fho.currentMedianHistory.lt minPrice then { fho with currentMedianHistory := minPrice } else fho
  if fho.currentMaxHistory.lt minPrice then { fho with currentMaxHistory := minPrice } else fho

/-- The `modify` of `update_median_feed`, with the median of the feeds. -/
def modify (c : FeedChain) (medianFeed : Price) (fho : FeedHistory) : Except String FeedHistory := do
  let fho := { fho with priceHistory := pushHistory c.feedHistoryWindow fho.priceHistory medianFeed }
  if fho.priceHistory = [] then return fho
  let fho := fho.takeStats
  unless c.hasHardfork 14 do return fho
  let hbdSupply ← c.hbdSupply
  unless hbdSupply > 0 do return fho
  let minPrice ← minPrice c.limit hbdSupply c.currentSupply
  return fho.correct minPrice

end FeedHistory

/-- `database::update_median_feed`. -/
def updateMedianFeed (c : FeedChain) (fho : FeedHistory) : Except String FeedHistory :=
  if c.headBlockNum % hiveFeedIntervalBlocks ≠ 0 then pure fho
  else if c.feeds.length ≥ hiveMinFeeds then fho.modify c (middle (sortPrices c.feeds))
  else pure fho

end Chain
end HiveChain
