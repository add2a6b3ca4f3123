import HiveChain.Protocol.AssetSymbol

/-!
# HiveChain.Protocol.LegacyAsset

`legacy_asset` as text (`legacy_asset::to_string`, `legacy_asset::from_string` and
`string_to_asset_num` of `protocol/asset.cpp`): an amount in units of the symbol's precision,
printed as the integer part, a dot and the fraction, then the ticker.

* The amount is the `int64_t` of a `share_type`; `/` and `%` truncate toward zero as in C++.
* `fc::to_string` and `fc::to_int64` are `boost::lexical_cast`: a minus sign and decimal
  digits, and back an optional sign and digits whose value fits in `int64_t`.
* The tickers depend on the build: on the main network HIVE and HBD print as `HIVE` and `HBD`,
  and `STEEM` and `SBD` are still read as them; with `IS_TEST_NET` they print and read as `TESTS`
  and `TBD`.
-/

namespace HiveChain
namespace Protocol

open Digits

/-- `legacy_asset`. -/
structure LegacyAsset where
  amount : Int
  symbol : AssetSymbolType
deriving DecidableEq, Repr

/-- The table of `precision`, the powers of ten up to `10 ^ 14`. -/
def precisionTable : List Int :=
  [1, 10, 100, 1000, 10000, 100000, 1000000, 10000000, 100000000, 1000000000, 10000000000,
    100000000000, 1000000000000, 10000000000000, 100000000000000]

/-- `precision`: the table at the symbol's decimals. -/
def precision (symbol : AssetSymbolType) : Int := precisionTable.getD symbol.decimals 0

/-- `fc::to_string( int64_t )`: a minus sign and the digits of the magnitude. -/
def int64ToString (d : Int) : List Char :=
  (if d < 0 then ['-'] else []) ++ (printBE 10 d.natAbs).map digitChar

/-- `fc::to_int64`: an optional sign and decimal digits whose value fits in `int64_t`, read up to
the first `NUL`. -/
def toInt64 (i : List Char) : Except String Int :=
  let magnitude (ds : List Char) (bound : Nat) : Except String Nat :=
    if ds ≠ [] ∧ ds.all isDigitChar ∧ readDecimal ds ≤ bound then pure (readDecimal ds)
    else throw "Couldn't parse int64_t"
  match cstr i with
  | '-' :: ds => (fun v => -(v : Int)) <$> magnitude ds (2 ^ 63)
  | '+' :: ds => (fun v => (v : Int)) <$> magnitude ds (2 ^ 63 - 1)
  | ds => (fun v => (v : Int)) <$> magnitude ds (2 ^ 63 - 1)

/-- The white space `boost::algorithm::trim_copy` removes. -/
def isSpace (c : Char) : Bool :=
  c = ' ' || c = '\t' || c = '\n' || c = '\x0b' || c = '\x0c' || c = '\r'

/-- `fc::trim`. -/
def trim (s : List Char) : List Char := ((s.dropWhile isSpace).reverse.dropWhile isSpace).reverse

/-- The white space `string_to_asset_num` skips before and after the ticker. -/
def isTickerSpace (c : Char) : Bool := c = ' ' || c = '\t' || c = '\n' || c = '\r'

/-- A letter `A`–`Z`. -/
def isUpper (c : Char) : Bool := 'A' ≤ c && c ≤ 'Z'

/-- `string_to_asset_num`: white space, one to eight capital letters naming HIVE, HBD or VESTS
(or the old `STEEM` and `SBD`) at their precision, white space, and the end of the C string. -/
def stringToAssetNum (net : Network) (p : List Char) (decimals : Nat) : Except String Nat := do
  let p := (cstr p).dropWhile isTickerSpace
  unless p.head?.any isUpper do throw "Cannot parse asset symbol"
  let name := p.takeWhile isUpper
  -- `FC_ASSERT( shift < 64 )` before each letter: a ninth letter fails
  unless name.length ≤ 8 do throw "Cannot parse asset symbol"
  let nameU64 := symbolU64 name
  let assetNum ←
    if nameU64 = obsoleteSymbolU64 net ∨ nameU64 = hiveSymbolU64 net then do
      unless decimals = 3 do throw "Incorrect decimal places"
      pure hiveAssetNumHive
    else if nameU64 = obdSymbolU64 net ∨ nameU64 = hbdSymbolU64 net then do
      unless decimals = 3 do throw "Incorrect decimal places"
      pure hiveAssetNumHbd
    else if nameU64 = vestsSymbolU64 then do
      unless decimals = 6 do throw "Incorrect decimal places"
      pure hiveAssetNumVests
    else throw "Cannot parse asset symbol"
  unless (p.dropWhile isUpper).all isTickerSpace do throw "Cannot parse asset symbol"
  pure assetNum

namespace LegacyAsset

/-- `asset_num_to_string`. -/
def assetNumToString (net : Network) (a : LegacyAsset) : List Char :=
  if a.symbol.assetNum = hiveAssetNumHive then
    match net with
    | .mainnet => "HIVE".toList
    | .testnet => "TESTS".toList
  else if a.symbol.assetNum = hiveAssetNumHbd then
    match net with
    | .mainnet => "HBD".toList
    | .testnet => "TBD".toList
  else if a.symbol.assetNum = hiveAssetNumVests then "VESTS".toList
  else "UNKN".toList

/-- `to_string`: the quotient by the precision, then a dot and the digits of the precision plus
the remainder with the leading one erased, then the ticker. -/
def toString (net : Network) (a : LegacyAsset) : List Char :=
  let prec := precision a.symbol
  let result := int64ToString (a.amount.tdiv prec)
  let result :=
    if prec > 1 then
      let fract := a.amount.tmod prec
      result ++ '.' :: (int64ToString (prec + fract)).drop 1
    else result
  result ++ ' ' :: a.assetNumToString net

/-- The `int64_t` sum of two `int64_t` values, as a two's complement machine computes it. -/
def int64Add (a b : Int) : Int := (a + b).bmod (2 ^ 64)

/-- `from_string`: the text before the first space is the amount and the rest the ticker; with a
dot, the digits after it fix the decimals, and the integer part is read with the precision's
zeros appended, the fraction with a one put before it. -/
def fromString (net : Network) (from_ : List Char) : Except String LegacyAsset := do
  let s := trim from_
  let spacePos := s.findIdx? (· = ' ')
  let dotPos := s.findIdx? (· = '.')
  match spacePos with
  | none => throw "space_pos != std::string::npos"
  | some spacePos =>
    let strSymbol := s.drop (spacePos + 1)
    match dotPos with
    | some dotPos =>
      unless spacePos > dotPos do throw "space_pos > dot_pos"
      let intpart := s.take dotPos
      let fractpart := '1' :: (s.drop (dotPos + 1)).take (spacePos - dotPos - 1)
      let decimals := (fractpart.length - 1) % 2 ^ 8
      let assetNum ← stringToAssetNum net strSymbol decimals
      let symbol := AssetSymbolType.fromAssetNum assetNum
      let prec := precision symbol
      let precString := int64ToString prec
      let intpart := if precString.isEmpty then intpart else intpart ++ precString.drop 1
      let amount ← toInt64 intpart
      let newValue := (← toInt64 fractpart) - prec
      let check := int64Add amount newValue
      let overflowA := amount > 0 ∧ newValue > 0 ∧ check < 0
      let overflowB := amount < 0 ∧ newValue < 0 ∧ check > 0
      if overflowA ∨ overflowB then throw "Couldn't parse int64_t"
      else pure ⟨amount + newValue, symbol⟩
    | none =>
      let intpart := s.take spacePos
      let amount ← toInt64 intpart
      let assetNum ← stringToAssetNum net strSymbol 0
      pure ⟨amount, AssetSymbolType.fromAssetNum assetNum⟩

end LegacyAsset

end Protocol
end HiveChain
