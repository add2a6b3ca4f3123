import HiveChain.Lib.Digits

/-!
# HiveChain.Protocol.AssetSymbol

`asset_symbol_type` (`protocol/asset_symbol.hpp`, `protocol/asset.cpp`): a `uint32_t` asset
number, its NAI string, its JSON object and its binary form.

* An asset number is `(nai_data_digits << 5) | control | decimals` for an SMT; HIVE, HBD and
  VESTS have fixed numbers whose NAI data digits lie above `SMT_MAX_NAI`.
* The NAI is the data digits and a Damm check digit, written as `@@` and nine decimal digits.
* In the legacy pack mode HIVE, HBD and VESTS are written as eight bytes, the precision and the
  old ticker (`STEEM`, `SBD`, `VESTS` on the main network, `TESTS`, `TBD`, `VESTS` when built with
  `IS_TEST_NET`); every other symbol, and every symbol in the HF26 mode, as the four bytes of its
  asset number. Bytes are little-endian.
* A `std::string` is a list of characters; the C functions that read it stop at the first `NUL`.
* JSON objects are modelled by the two values they carry, the NAI string and the decimals.
* A constant of the source keeps its macro's name, in camel case (`HIVE_100_PERCENT` is
  `hive100Percent`).
-/

namespace HiveChain
namespace Protocol

open Digits

/-! ## Constants -/

def hiveAssetSymbolPrecisionBits : Nat := 4

def hiveAssetControlBits : Nat := 1

def hiveNaiShift : Nat := hiveAssetSymbolPrecisionBits + hiveAssetControlBits

def smtMaxNai : Nat := 99999999

def smtMinNai : Nat := 1

def hiveAssetSymbolNaiLength : Nat := 10

def hiveAssetSymbolNaiStringLength : Nat := hiveAssetSymbolNaiLength + 2

def hivePrecisionHbd : Nat := 3

def hivePrecisionHive : Nat := 3

def hivePrecisionVests : Nat := 6

def hiveNaiHbd : Nat := 1

def hiveNaiHive : Nat := 2

def hiveNaiVests : Nat := 3

def hiveAssetNumHbd : Nat := ((smtMaxNai + hiveNaiHbd) <<< hiveNaiShift) ||| hivePrecisionHbd

def hiveAssetNumHive : Nat := ((smtMaxNai + hiveNaiHive) <<< hiveNaiShift) ||| hivePrecisionHive

def hiveAssetNumVests : Nat := ((smtMaxNai + hiveNaiVests) <<< hiveNaiShift) ||| hivePrecisionVests

def hiveAssetMaxDecimals : Nat := 12

def smtAssetNumPrecisionMask : Nat := 0xF

def smtAssetNumControlMask : Nat := 0x10

/-- The two builds of the protocol: the main network, and `IS_TEST_NET`, whose HIVE and HBD are
written `TESTS` and `TBD`. -/
inductive Network where
  | mainnet
  | testnet
deriving DecidableEq, Repr

/-- A ticker of up to eight letters as the `uint64_t` of its characters, the first lowest. -/
def symbolU64 (name : List Char) : Nat := readBE 256 (name.map Char.toNat).reverse

/-- `VESTS_SYMBOL_U64`, the same in both builds. -/
def vestsSymbolU64 : Nat := symbolU64 ['V', 'E', 'S', 'T', 'S']

def obsoleteSymbolU64 : Network → Nat
  | .mainnet => symbolU64 ['S', 'T', 'E', 'E', 'M']
  | .testnet => symbolU64 ['T', 'E', 'S', 'T', 'S']

def hiveSymbolU64 : Network → Nat
  | .mainnet => symbolU64 ['H', 'I', 'V', 'E']
  | .testnet => obsoleteSymbolU64 .testnet

def obdSymbolU64 : Network → Nat
  | .mainnet => symbolU64 ['S', 'B', 'D']
  | .testnet => symbolU64 ['T', 'B', 'D']

def hbdSymbolU64 : Network → Nat
  | .mainnet => symbolU64 ['H', 'B', 'D']
  | .testnet => obdSymbolU64 .testnet

def vestsSymbolSer : Nat := 6 ||| (vestsSymbolU64 <<< 8)

def obsoleteSymbolSer (net : Network) : Nat := 3 ||| (obsoleteSymbolU64 net <<< 8)

def obdSymbolSer (net : Network) : Nat := 3 ||| (obdSymbolU64 net <<< 8)

/-! ## The symbol -/

/-- `asset_symbol_type`: a `uint32_t` asset number. -/
structure AssetSymbolType where
  assetNum : Nat
  assetNum_lt : assetNum < 2 ^ 32
deriving DecidableEq, Repr

/-- `asset_symbol_space`. -/
inductive AssetSymbolSpace where
  | legacySpace
  | smtNaiSpace
deriving DecidableEq, Repr

namespace AssetSymbolType

@[ext] theorem ext {a b : AssetSymbolType} (h : a.assetNum = b.assetNum) : a = b := by
  cases a
  cases b
  cases h
  rfl

/-- `from_asset_num`, whose argument is a `uint32_t`. -/
def fromAssetNum (assetNum : Nat) : AssetSymbolType := ⟨assetNum % 2 ^ 32, Nat.mod_lt _ (by decide)⟩

/-- Whether the asset number is one of HIVE, HBD and VESTS, the cases the switches share. -/
def isLegacyNum (assetNum : Nat) : Prop :=
  assetNum = hiveAssetNumHive ∨ assetNum = hiveAssetNumHbd ∨ assetNum = hiveAssetNumVests

instance (assetNum : Nat) : Decidable (isLegacyNum assetNum) :=
  inferInstanceAs (Decidable (_ ∨ _))

/-- `space`. -/
def space (sym : AssetSymbolType) : AssetSymbolSpace :=
  if isLegacyNum sym.assetNum then .legacySpace else .smtNaiSpace

/-- `decimals`. -/
def decimals (sym : AssetSymbolType) : Nat := sym.assetNum &&& smtAssetNumPrecisionMask

/-- `validate`: HIVE, HBD and VESTS, or data digits in range, the control bit and at most
twelve decimals. -/
def validate (sym : AssetSymbolType) : Except String Unit :=
  if isLegacyNum sym.assetNum then pure ()
  else
    let naiDataDigits := sym.assetNum >>> hiveNaiShift
    let nai1bit := sym.assetNum &&& smtAssetNumControlMask
    let naiDecimalPlaces := sym.assetNum &&& smtAssetNumPrecisionMask
    unless naiDataDigits ≥ smtMinNai ∧ naiDataDigits ≤ smtMaxNai ∧
        nai1bit = smtAssetNumControlMask ∧ naiDecimalPlaces ≤ hiveAssetMaxDecimals do
      throw "Cannot determine space for asset ${n}"

end AssetSymbolType

/-! ## The NAI -/

/-- The table of `damm_checksum_8digit`, each entry ten times the state. -/
def dammTable : List Nat :=
  [ 0, 30, 10, 70, 50, 90, 80, 60, 40, 20,
   70,  0, 90, 20, 10, 50, 40, 80, 60, 30,
   40, 20,  0, 60, 80, 70, 10, 30, 50, 90,
   10, 70, 50,  0, 90, 80, 30, 40, 20, 60,
   60, 10, 20, 30,  0, 40, 50, 90, 70, 80,
   30, 60, 70, 40, 20,  0, 90, 50, 80, 10,
   50, 80, 60, 90, 70, 20,  0, 10, 30, 40,
   80, 90, 40, 50, 30, 60, 20,  0, 10, 70,
   90, 40, 30, 80, 60, 10, 70, 20,  0, 50,
   20, 50, 80, 10, 40, 30, 60, 70, 90,  0]

/-- `damm_checksum_8digit`: the Damm check digit of eight decimal digits. -/
def dammChecksum8digit (value : Nat) : Except String Nat := do
  unless value < 100000000 do throw "value < 100000000"
  let t := fun i => dammTable.getD i 0
  let q0 := value / 10
  let d0 := value % 10
  let q1 := q0 / 10
  let d1 := q0 % 10
  let q2 := q1 / 10
  let d2 := q1 % 10
  let q3 := q2 / 10
  let d3 := q2 % 10
  let q4 := q3 / 10
  let d4 := q3 % 10
  let q5 := q4 / 10
  let d5 := q4 % 10
  let d6 := q5 % 10
  let d7 := q5 / 10
  let x := t d7
  let x := t (x + d6)
  let x := t (x + d5)
  let x := t (x + d4)
  let x := t (x + d3)
  let x := t (x + d2)
  let x := t (x + d1)
  let x := t (x + d0)
  pure (x / 10)

/-- `asset_num_from_nai`: check the data digits and the check digit, then the fixed number of
HIVE, HBD or VESTS at its precision, or the SMT number at the given decimals. -/
def assetNumFromNai (nai decimalPlaces : Nat) : Except String Nat := do
  let naiCheckDigit := nai % 10
  let naiDataDigits := nai / 10
  unless naiDataDigits ≥ smtMinNai ∧ naiDataDigits ≤ smtMaxNai do throw "NAI out of range"
  let checksum ← dammChecksum8digit naiDataDigits
  unless naiCheckDigit = checksum do throw "Invalid check digit"
  if naiDataDigits = hiveNaiHive then
    unless decimalPlaces = hivePrecisionHive do throw "decimal_places == HIVE_PRECISION_HIVE"
    pure hiveAssetNumHive
  else if naiDataDigits = hiveNaiHbd then
    unless decimalPlaces = hivePrecisionHbd do throw "decimal_places == HIVE_PRECISION_HBD"
    pure hiveAssetNumHbd
  else if naiDataDigits = hiveNaiVests then
    unless decimalPlaces = hivePrecisionVests do throw "decimal_places == HIVE_PRECISION_VESTS"
    pure hiveAssetNumVests
  else
    unless decimalPlaces ≤ hiveAssetMaxDecimals do throw "Invalid decimal_places"
    pure (((naiDataDigits <<< hiveNaiShift) ||| smtAssetNumControlMask ||| decimalPlaces) % 2 ^ 32)

/-- `from_nai`. -/
def fromNai (nai decimalPlaces : Nat) : Except String AssetSymbolType :=
  AssetSymbolType.fromAssetNum <$> assetNumFromNai nai decimalPlaces

namespace AssetSymbolType

/-- `to_nai`: the data digits, fixed for HIVE, HBD and VESTS, and their check digit. -/
def toNai (sym : AssetSymbolType) : Except String Nat := do
  let naiDataDigits ←
    if sym.assetNum = hiveAssetNumHive then pure hiveNaiHive
    else if sym.assetNum = hiveAssetNumHbd then pure hiveNaiHbd
    else if sym.assetNum = hiveAssetNumVests then pure hiveNaiVests
    else do
      unless sym.space = .smtNaiSpace do throw "space() == smt_nai_space"
      pure (sym.assetNum >>> hiveNaiShift)
  let naiCheckDigit ← dammChecksum8digit naiDataDigits
  pure ((naiDataDigits * 10 + naiCheckDigit) % 2 ^ 32)

/-- `to_nai_string`: `@@` and the NAI in nine digits, the first of them the NAI over `10 ^ 8`. -/
def toNaiString (sym : AssetSymbolType) : Except String (List Char) := do
  let x ← sym.toNai
  pure ['@', '@', digitChar (x / 10 ^ 8), digitChar (x / 10 ^ 7 % 10), digitChar (x / 10 ^ 6 % 10),
    digitChar (x / 10 ^ 5 % 10), digitChar (x / 10 ^ 4 % 10), digitChar (x / 10 ^ 3 % 10),
    digitChar (x / 10 ^ 2 % 10), digitChar (x / 10 % 10), digitChar (x % 10)]

end AssetSymbolType

/-- The characters C reads of a string: those before the first `NUL`. -/
def cstr (s : List Char) : List Char := s.takeWhile (· ≠ '\x00')

/-- `boost::lexical_cast` to an unsigned integer of `bits` bits: an optional sign and decimal
digits whose value fits; a minus sign negates modulo `2 ^ bits`. -/
def lexicalCastUnsigned (bits : Nat) (s : List Char) : Except String Nat :=
  let magnitude (ds : List Char) : Except String Nat :=
    if ds ≠ [] ∧ ds.all isDigitChar ∧ readDecimal ds < 2 ^ bits then pure (readDecimal ds)
    else throw "bad lexical cast: source type value could not be interpreted as target"
  match s with
  | '-' :: ds => (fun v => (2 ^ bits - v) % 2 ^ bits) <$> magnitude ds
  | '+' :: ds => magnitude ds
  | ds => magnitude ds

/-- `from_nai_string`: eleven characters, `@@`, and the NAI they spell. -/
def fromNaiString (p : List Char) (decimalPlaces : Nat) : Except String AssetSymbolType := do
  unless (cstr p).length = hiveAssetSymbolNaiStringLength - 1 do
    throw "Incorrect NAI string length"
  unless p[0]? = some '@' ∧ p[1]? = some '@' do throw "Invalid NAI string prefix"
  let nai ← lexicalCastUnsigned 32 (cstr (p.drop 2))
  fromNai nai decimalPlaces

/-- `to_variant`: the NAI string and the decimals. -/
def toVariant (sym : AssetSymbolType) : Except String (List Char × Nat) := do
  let nai ← sym.toNaiString
  pure (nai, sym.decimals)

/-- `from_variant` on the values of its two keys: the decimals bounded, then `from_nai_string`
with the decimals as a `uint8_t`. -/
def fromVariant (nai : List Char) (decimals : Nat) : Except String AssetSymbolType := do
  unless decimals ≤ hiveAssetMaxDecimals do
    throw "Expected decimals to be less than or equal to ${num}"
  fromNaiString nai (decimals % 2 ^ 8)

/-! ## Binary form -/

/-- `pack_type`. -/
inductive PackType where
  | legacy
  | hf26
deriving DecidableEq, Repr

/-- The `k` bytes of a value in memory, lowest first. -/
def leBytes (k x : Nat) : List UInt8 := (fixedBE 256 k x).reverse.map UInt8.ofNat

/-- The value of bytes read into memory, lowest first. -/
def readLE (bs : List UInt8) : Nat := readBE 256 (bs.map UInt8.toNat).reverse

/-- `datastream::read` of `k` bytes. -/
def readBytes (k : Nat) (s : List UInt8) : Except String (List UInt8 × List UInt8) :=
  if k ≤ s.length then pure (s.take k, s.drop k)
  else throw "${method} datastream of length ${len} over by ${over}"

/-- `fc::raw::pack` of a symbol. -/
def pack (net : Network) (mode : PackType) (sym : AssetSymbolType) : Except String (List UInt8) :=
  match sym.space, mode with
  | .legacySpace, .legacy => do
    let ser ←
      if sym.assetNum = hiveAssetNumHive then pure (obsoleteSymbolSer net)
      else if sym.assetNum = hiveAssetNumHbd then pure (obdSymbolSer net)
      else if sym.assetNum = hiveAssetNumVests then pure vestsSymbolSer
      else throw "Cannot serialize unknown asset symbol"
    pure (leBytes 8 ser)
  -- HF26 mode, and every SMT: the four bytes of the asset number
  | _, _ => pure (leBytes 4 sym.assetNum)

/-- The second half of a legacy symbol: four more bytes, which must complete `ser`. -/
def unpackLegacy (lo : List UInt8) (ser assetNum : Nat) (s : List UInt8) :
    Except String (Nat × List UInt8) := do
  let hi ← readBytes 4 s
  unless readLE (lo ++ hi.1) = ser do throw "invalid asset bits"
  pure (assetNum, hi.2)

/-- `fc::raw::unpack` of a symbol: four bytes, four more when they begin a legacy symbol, and
`validate` on the result. -/
def unpack (net : Network) (s : List UInt8) : Except String (AssetSymbolType × List UInt8) := do
  let lo ← readBytes 4 s
  let ser := readLE lo.1
  let read ←
    if ser = obsoleteSymbolSer net % 2 ^ 32 then
      unpackLegacy lo.1 (obsoleteSymbolSer net) hiveAssetNumHive lo.2
    else if ser = obdSymbolSer net % 2 ^ 32 then unpackLegacy lo.1 (obdSymbolSer net) hiveAssetNumHbd lo.2
    else if ser = vestsSymbolSer % 2 ^ 32 then unpackLegacy lo.1 vestsSymbolSer hiveAssetNumVests lo.2
    else pure (ser, lo.2)
  let sym := AssetSymbolType.fromAssetNum read.1
  sym.validate
  pure (sym, read.2)

end Protocol
end HiveChain
