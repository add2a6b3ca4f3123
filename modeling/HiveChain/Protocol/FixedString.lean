import HiveChain.Protocol.AssetSymbol

/-!
# HiveChain.Protocol.FixedString

`fixed_string_impl<Storage>` (`protocol/fixed_string.hpp`): a string of at most
`sizeof(Storage)` bytes kept in integer storage, so that comparing the storage compares the
strings. Account names are `fixed_string<16>`, custom operation ids `fixed_string<32>`.

* A storage is a word (`uint64_t` or `fc::uint128_t`, lowest byte first in memory) or an
  `fc::erpair` of two storages, compared by `std::tie`.
* The constructor `memcpy`s the bytes of the string into value-initialised storage and converts
  it with `boost::endian::big_to_native`, that is `fc::endian_reverse`, word by word.
  `operator std::string` converts back and keeps the bytes before the first NUL (`strnlen`).
* `is_verifying_enabled()`, a thread-local flag, is the parameter `verify`.
* Strings are their bytes, `List UInt8`.
-/

namespace HiveChain
namespace Protocol

/-- A fixed-string storage with its value. -/
inductive Storage where
  | uint64 (n : Nat)
  | uint128 (n : Nat)
  | erpair (first second : Storage)
deriving DecidableEq, Repr

namespace Storage

/-- `sizeof` of the storage. -/
def byteSize : Storage → Nat
  | uint64 _ => 8
  | uint128 _ => 16
  | erpair a b => a.byteSize + b.byteSize

/-- The bytes of the storage in memory: each word lowest byte first, an `erpair` its `first`
then its `second`. -/
def bytes : Storage → List UInt8
  | uint64 n => leBytes 8 n
  | uint128 n => leBytes 16 n
  | erpair a b => a.bytes ++ b.bytes

/-- The storage of this shape whose memory holds `bs`. -/
def ofBytes : Storage → List UInt8 → Storage
  | uint64 _, bs => uint64 (readLE (bs.take 8))
  | uint128 _, bs => uint128 (readLE (bs.take 16))
  | erpair a b, bs => erpair (a.ofBytes (bs.take a.byteSize)) (b.ofBytes (bs.drop a.byteSize))

/-- `memcpy( (char*)&storage, src, src.size() )`. -/
def memcpy (st : Storage) (src : List UInt8) : Storage :=
  st.ofBytes (src ++ st.bytes.drop src.length)

/-- `boost::endian::endian_reverse` of a `uint64_t`: its eight bytes in the other order. -/
def endianReverse64 (n : Nat) : Nat := readLE (leBytes 8 n).reverse

/-- `to_uint128( hi, lo )`. -/
def toUint128 (hi lo : Nat) : Nat := (hi <<< 64) ||| lo

/-- `fc::endian_reverse`, through an `erpair` to its words. -/
def endianReverse : Storage → Storage
  | uint64 n => uint64 (endianReverse64 n)
  -- the `uint128` overload reverses `uint128_high_bits` and `uint128_low_bits` each in place
  | uint128 u => uint128 (toUint128 (endianReverse64 ((u >>> 64) % 2 ^ 64)) (endianReverse64 (u % 2 ^ 64)))
  | erpair a b => erpair a.endianReverse b.endianReverse

/-- `operator <` of storages: words as unsigned numbers, an `erpair` by `std::tie`, which looks
at `second` when neither `first` is below the other. -/
def lt : Storage → Storage → Bool
  | uint64 a, uint64 b => decide (a < b)
  | uint128 a, uint128 b => decide (a < b)
  | erpair a₁ a₂, erpair b₁ b₂ => a₁.lt b₁ || (!b₁.lt a₁ && a₂.lt b₂)
  | _, _ => false
termination_by a b => sizeOf a + sizeOf b

end Storage

/-- The sizes `HIVE_DEFINE_FIXED_STRING_IMPL` defines `fixed_string<N>` for. -/
inductive FixedStringSize where
  | size16
  | size24
  | size32
deriving DecidableEq, Repr

namespace FixedStringSize

/-- `N`. -/
def toNat : FixedStringSize → Nat
  | size16 => 16
  | size24 => 24
  | size32 => 32

/-- `fixed_string_impl_for_size<N>::t::Storage`, value-initialised. -/
def storage : FixedStringSize → Storage
  | size16 => .erpair (.uint64 0) (.uint64 0)
  | size24 => .erpair (.erpair (.uint64 0) (.uint64 0)) (.uint64 0)
  | size32 => .erpair (.uint128 0) (.uint128 0)

end FixedStringSize

/-- `assign( storage, in )`: with verification an input longer than the storage fails the
`FC_ASSERT`, without it the input is cut to the storage. -/
def assign (verify : Bool) (storage : Storage) (src : List UInt8) : Except String Storage :=
  if verify then do
    unless src.length ≤ storage.byteSize do
      throw "Input too large: `${in}` (${is}) for fixed size string: (${fs})"
    pure (storage.memcpy src)
  else if src.length ≤ storage.byteSize then pure (storage.memcpy src)
  else pure (storage.memcpy (src.take storage.byteSize))

/-- The constructor from a `std::string`: `assign` into the value-initialised storage, then
`big_to_native`. -/
def fixedStringImpl (verify : Bool) (storage : Storage) (str : List UInt8) : Except String Storage := do
  let d ← assign verify storage str
  pure d.endianReverse

/-- `fixed_string<N>( str )`. -/
def fixedString (n : FixedStringSize) (verify : Bool) (str : List UInt8) : Except String Storage :=
  fixedStringImpl verify n.storage str

/-- `strnlen( s, n )`. -/
def strnlen (s : List UInt8) (n : Nat) : Nat := ((s.take n).takeWhile (· != 0)).length

/-- `operator std::string` of the stored `data`: `native_to_big`, then the bytes before the first
NUL. -/
def Storage.toString (data : Storage) : List UInt8 :=
  let d := data.endianReverse
  d.bytes.take (strnlen d.bytes d.byteSize)

end Protocol
end HiveChain
