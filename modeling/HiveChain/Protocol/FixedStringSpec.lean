import HiveChain.Protocol.FixedString
import HiveChain.Protocol.AssetSymbolSpec

/-!
# HiveChain.Protocol.FixedStringSpec

What the integer storage of `fixed_string` keeps of a string, and how it compares.

* `Storage.loadBE` — each word the big-endian number of its bytes. Storages so loaded compare as
  their bytes do, lexicographically, whatever their shape (`lt_loadBE_iff`).
* `endian_reverse` of the memory is `loadBE` of the bytes in `reverseOrder`: the bytes
  themselves for `uint64_t` words, but for a `uint128` word its two halves exchanged
  (`endianReverse_ofBytes`). So `fixed_string<16>` and `fixed_string<24>` compare as the strings
  do, while `fixed_string<32>` compares bytes 8 to 15 of each half before bytes 0 to 7.
* For every size a string without NUL bytes that fits reads back, so equal fixed strings hold
  equal strings.
-/

namespace HiveChain
namespace Protocol

open Digits

/-! ## Bytes -/

theorem toNat_lt_of_mem_map {bs : List UInt8} : ∀ d ∈ bs.map UInt8.toNat, d < 256 := by
  intro d hd
  obtain ⟨x, -, rfl⟩ := List.mem_map.1 hd
  exact x.toNat_lt

theorem readLE_reverse (bs : List UInt8) : readLE bs.reverse = readBE 256 (bs.map UInt8.toNat) := by
  rw [readLE, List.map_reverse, List.reverse_reverse]

theorem readLE_lt (bs : List UInt8) : readLE bs < 256 ^ bs.length := by
  have h : readBE 256 (bs.map UInt8.toNat).reverse < 256 ^ (bs.map UInt8.toNat).reverse.length :=
    readBE_lt (by decide) fun d hd => toNat_lt_of_mem_map d (List.mem_reverse.1 hd)
  rwa [List.length_reverse, List.length_map] at h

theorem readLE_append (l m : List UInt8) : readLE (l ++ m) = readLE l + 256 ^ l.length * readLE m := by
  rw [readLE, readLE, readLE, List.map_append, List.reverse_append, readBE_append, List.length_reverse,
    List.length_map, Nat.add_comm, Nat.mul_comm]

theorem leBytes_readLE (bs : List UInt8) : leBytes bs.length (readLE bs) = bs := by
  have hdig : ∀ d ∈ (bs.map UInt8.toNat).reverse, d < 256 :=
    fun d hd => toNat_lt_of_mem_map d (List.mem_reverse.1 hd)
  have hfix : fixedBE 256 bs.length (readLE bs) = (bs.map UInt8.toNat).reverse := by
    apply eq_of_readBE_eq (by decide) (by simp) (fixedBE_lt (by decide)) hdig
    rw [readBE_fixedBE, Nat.mod_eq_of_lt (readLE_lt bs)]
    rfl
  rw [leBytes, hfix, List.reverse_reverse, List.map_map]
  conv_rhs => rw [← List.map_id bs]
  exact List.map_congr_left fun x _ => UInt8.ofNat_toNat

theorem map_toNat_lt_iff {c d : List UInt8} : c.map UInt8.toNat < d.map UInt8.toNat ↔ c < d := by
  induction c generalizing d with
  | nil => cases d <;> simp
  | cons x c ih =>
    cases d with
    | nil => simp
    | cons y d =>
      rw [List.map_cons, List.map_cons, List.cons_lt_cons_iff, List.cons_lt_cons_iff, ih,
        UInt8.lt_iff_toNat_lt, UInt8.toNat_inj]

theorem readLE_reverse_lt_iff {c d : List UInt8} (h : c.length = d.length) :
    readLE c.reverse < readLE d.reverse ↔ c < d := by
  rw [readLE_reverse, readLE_reverse,
    readBE_lt_readBE_iff (by decide) (by simp [h]) toNat_lt_of_mem_map toNat_lt_of_mem_map,
    map_toNat_lt_iff]

/-! ## Words -/

namespace Storage

theorem endianReverse64_readLE {c : List UInt8} (hc : c.length = 8) :
    endianReverse64 (readLE c) = readLE c.reverse := by
  rw [endianReverse64, ← hc, leBytes_readLE]

theorem toUint128_eq {hi lo : Nat} (hlo : lo < 2 ^ 64) : toUint128 hi lo = hi * 2 ^ 64 + lo := by
  rw [toUint128, ← Nat.shiftLeft_add_eq_or_of_lt hlo, Nat.shiftLeft_eq]

theorem endianReverse_uint64_readLE {c : List UInt8} (hc : c.length = 8) :
    (uint64 (readLE c)).endianReverse = uint64 (readLE c.reverse) := by
  rw [endianReverse, endianReverse64_readLE hc]

theorem endianReverse_uint128_readLE {c : List UInt8} (hc : c.length = 16) :
    (uint128 (readLE c)).endianReverse = uint128 (readLE (c.drop 8 ++ c.take 8).reverse) := by
  have hlo : (c.take 8).length = 8 := by simp [hc]
  have hhi : (c.drop 8).length = 8 := by simp [hc]
  have hltlo : readLE (c.take 8) < 2 ^ 64 := lt_of_lt_of_eq (readLE_lt _) (by rw [hlo]; norm_num)
  have hlthi : readLE (c.drop 8) < 2 ^ 64 := lt_of_lt_of_eq (readLE_lt _) (by rw [hhi]; norm_num)
  have hrevlo : readLE (c.take 8).reverse < 2 ^ 64 :=
    lt_of_lt_of_eq (readLE_lt _) (by rw [List.length_reverse, hlo]; norm_num)
  have hsplit : readLE c = readLE (c.take 8) + 2 ^ 64 * readLE (c.drop 8) := by
    conv_lhs => rw [← List.take_append_drop 8 c]
    rw [readLE_append, hlo]
    norm_num
  have hhigh : (readLE c >>> 64) % 2 ^ 64 = readLE (c.drop 8) := by
    rw [hsplit, Nat.shiftRight_eq_div_pow, Nat.add_mul_div_left _ _ (Nat.two_pow_pos 64),
      Nat.div_eq_of_lt hltlo, Nat.zero_add, Nat.mod_eq_of_lt hlthi]
  have hlow : readLE c % 2 ^ 64 = readLE (c.take 8) := by
    rw [hsplit, Nat.add_mul_mod_self_left, Nat.mod_eq_of_lt hltlo]
  rw [endianReverse, hhigh, hlow, endianReverse64_readLE hhi, endianReverse64_readLE hlo,
    toUint128_eq hrevlo, List.reverse_append, readLE_append, List.length_reverse, hlo]
  norm_num
  ring

theorem reverse_exchange_halves {c : List UInt8} (hc : c.length = 16) :
    (((c.drop 8 ++ c.take 8).reverse.drop 8) ++ (c.drop 8 ++ c.take 8).reverse.take 8).reverse = c := by
  have hlo : (c.take 8).reverse.length = 8 := by simp [hc]
  have hrev : (c.drop 8 ++ c.take 8).reverse = (c.take 8).reverse ++ (c.drop 8).reverse :=
    List.reverse_append
  rw [hrev, List.drop_left' hlo, List.take_left' hlo, List.reverse_append, List.reverse_reverse,
    List.reverse_reverse, List.take_append_drop]

/-! ## Storages -/

@[simp] theorem lt_uint64 (a b : Nat) : (uint64 a).lt (uint64 b) = decide (a < b) := by
  rw [lt]

@[simp] theorem lt_uint128 (a b : Nat) : (uint128 a).lt (uint128 b) = decide (a < b) := by
  rw [lt]

@[simp] theorem lt_erpair (a₁ a₂ b₁ b₂ : Storage) :
    (erpair a₁ a₂).lt (erpair b₁ b₂) = (a₁.lt b₁ || (!b₁.lt a₁ && a₂.lt b₂)) := by
  rw [lt]

@[simp] theorem byteSize_ofBytes (st : Storage) (bs : List UInt8) : (st.ofBytes bs).byteSize = st.byteSize := by
  induction st generalizing bs with
  | uint64 n => rfl
  | uint128 n => rfl
  | erpair a b iha ihb => rw [ofBytes, byteSize, byteSize, iha, ihb]

theorem take_drop_length {a b : Storage} {bs : List UInt8} (h : bs.length = (erpair a b).byteSize) :
    (bs.take a.byteSize).length = a.byteSize ∧ (bs.drop a.byteSize).length = b.byteSize := by
  rw [byteSize] at h
  constructor
  · simp only [List.length_take]
    omega
  · simp only [List.length_drop]
    omega

theorem bytes_ofBytes (st : Storage) {bs : List UInt8} (h : bs.length = st.byteSize) :
    (st.ofBytes bs).bytes = bs := by
  induction st generalizing bs with
  | uint64 n =>
    have h8 : bs.length = 8 := h
    rw [ofBytes, bytes, List.take_of_length_le h8.le, ← h8, leBytes_readLE]
  | uint128 n =>
    have h16 : bs.length = 16 := h
    rw [ofBytes, bytes, List.take_of_length_le h16.le, ← h16, leBytes_readLE]
  | erpair a b iha ihb =>
    obtain ⟨ha, hb⟩ := take_drop_length h
    rw [ofBytes, bytes, iha ha, ihb hb, List.take_append_drop]

theorem endianReverse_endianReverse_ofBytes (st : Storage) {bs : List UInt8} (h : bs.length = st.byteSize) :
    (st.ofBytes bs).endianReverse.endianReverse = st.ofBytes bs := by
  induction st generalizing bs with
  | uint64 n =>
    have h8 : (bs.take 8).length = 8 := by simp [h, byteSize]
    rw [ofBytes, endianReverse_uint64_readLE h8, endianReverse_uint64_readLE (by simpa using h8),
      List.reverse_reverse]
  | uint128 n =>
    have h16 : (bs.take 16).length = 16 := by simp [h, byteSize]
    rw [ofBytes, endianReverse_uint128_readLE h16, endianReverse_uint128_readLE (by simp [h16]),
      reverse_exchange_halves h16]
  | erpair a b iha ihb =>
    obtain ⟨ha, hb⟩ := take_drop_length h
    rw [ofBytes, endianReverse, endianReverse, iha ha, ihb hb]

/-! ## Big-endian storages -/

/-- The storage of this shape with each word the big-endian number of its bytes. -/
def loadBE : Storage → List UInt8 → Storage
  | uint64 _, bs => uint64 (readLE (bs.take 8).reverse)
  | uint128 _, bs => uint128 (readLE (bs.take 16).reverse)
  | erpair a b, bs => erpair (a.loadBE (bs.take a.byteSize)) (b.loadBE (bs.drop a.byteSize))

/-- The bytes in the order `endian_reverse` makes them significant: as they are in a `uint64_t`
word, with the two halves exchanged in a `uint128` word. -/
def reverseOrder : Storage → List UInt8 → List UInt8
  | uint64 _, bs => bs.take 8
  | uint128 _, bs => (bs.take 16).drop 8 ++ bs.take 8
  | erpair a b, bs => a.reverseOrder (bs.take a.byteSize) ++ b.reverseOrder (bs.drop a.byteSize)

/-- Storages whose words are all `uint64_t`. -/
inductive Uint64Words : Storage → Prop
  | uint64 (n : Nat) : Uint64Words (uint64 n)
  | erpair {a b : Storage} : Uint64Words a → Uint64Words b → Uint64Words (erpair a b)

theorem reverseOrder_length (st : Storage) {bs : List UInt8} (h : bs.length = st.byteSize) :
    (st.reverseOrder bs).length = st.byteSize := by
  induction st generalizing bs with
  | uint64 n => simp [reverseOrder, byteSize, h]
  | uint128 n =>
    have h16 : bs.length = 16 := h
    simp [reverseOrder, byteSize, h16]
  | erpair a b iha ihb =>
    obtain ⟨ha, hb⟩ := take_drop_length h
    rw [reverseOrder, List.length_append, iha ha, ihb hb, byteSize]

theorem reverseOrder_of_uint64Words {st : Storage} (hst : st.Uint64Words) {bs : List UInt8}
    (h : bs.length = st.byteSize) : st.reverseOrder bs = bs := by
  induction hst generalizing bs with
  | uint64 n => exact List.take_of_length_le h.le
  | erpair _ _ iha ihb =>
    obtain ⟨ha, hb⟩ := take_drop_length h
    rw [reverseOrder, iha ha, ihb hb, List.take_append_drop]

theorem endianReverse_ofBytes (st : Storage) {bs : List UInt8} (h : bs.length = st.byteSize) :
    (st.ofBytes bs).endianReverse = st.loadBE (st.reverseOrder bs) := by
  induction st generalizing bs with
  | uint64 n =>
    have h8 : (bs.take 8).length = 8 := by simp [h, byteSize]
    rw [ofBytes, endianReverse_uint64_readLE h8, reverseOrder, loadBE, List.take_take, Nat.min_self]
  | uint128 n =>
    have h16 : bs.length = 16 := h
    have hlen : (bs.drop 8 ++ bs.take 8).length ≤ 16 := by simp [h16]
    rw [ofBytes, reverseOrder, loadBE, List.take_of_length_le h16.le, endianReverse_uint128_readLE h16,
      List.take_of_length_le hlen]
  | erpair a b iha ihb =>
    obtain ⟨ha, hb⟩ := take_drop_length h
    rw [ofBytes, endianReverse, iha ha, ihb hb, reverseOrder, loadBE,
      List.take_left' (reverseOrder_length a ha), List.drop_left' (reverseOrder_length a ha)]

theorem lt_or_not_gt_and_iff {c d : List UInt8} {p : Prop} :
    c < d ∨ ¬d < c ∧ p ↔ c < d ∨ c = d ∧ p := by
  constructor
  · rintro (hlt | ⟨hngt, hp⟩)
    · exact .inl hlt
    · by_cases hlt : c < d
      · exact .inl hlt
      · exact .inr ⟨List.le_antisymm (List.not_lt.1 hngt) (List.not_lt.1 hlt), hp⟩
  · rintro (hlt | ⟨rfl, hp⟩)
    · exact .inl hlt
    · exact .inr ⟨List.lt_irrefl c, hp⟩

theorem lt_loadBE_iff (st : Storage) {c d : List UInt8} (hc : c.length = st.byteSize)
    (hd : d.length = st.byteSize) : (st.loadBE c).lt (st.loadBE d) = true ↔ c < d := by
  induction st generalizing c d with
  | uint64 n =>
    have hc8 : c.length = 8 := hc
    have hd8 : d.length = 8 := hd
    rw [loadBE, loadBE, lt_uint64, decide_eq_true_iff, List.take_of_length_le hc8.le,
      List.take_of_length_le hd8.le]
    exact readLE_reverse_lt_iff (hc8.trans hd8.symm)
  | uint128 n =>
    have hc16 : c.length = 16 := hc
    have hd16 : d.length = 16 := hd
    rw [loadBE, loadBE, lt_uint128, decide_eq_true_iff, List.take_of_length_le hc16.le,
      List.take_of_length_le hd16.le]
    exact readLE_reverse_lt_iff (hc16.trans hd16.symm)
  | erpair a b iha ihb =>
    obtain ⟨hca, hcb⟩ := take_drop_length hc
    obtain ⟨hda, hdb⟩ := take_drop_length hd
    -- `std::tie` compares `first`, then `second`: the bytes of `first` come first
    rw [loadBE, loadBE, lt_erpair, Bool.or_eq_true, Bool.and_eq_true, Bool.not_eq_true',
      iha hca hda, ihb hcb hdb, ← Bool.not_eq_true, iha hda hca, lt_or_not_gt_and_iff,
      ← append_lt_append_iff _ _ (hca.trans hda.symm), List.take_append_drop, List.take_append_drop]

end Storage

/-! ## Fixed strings -/

namespace FixedStringSize

theorem storage_byteSize (n : FixedStringSize) : n.storage.byteSize = n.toNat := by
  cases n <;> rfl

theorem storage_bytes (n : FixedStringSize) : n.storage.bytes = List.replicate n.toNat 0 := by
  cases n <;> decide

theorem storage_uint64Words {n : FixedStringSize} (hn : n ≠ .size32) : n.storage.Uint64Words := by
  cases n with
  | size16 => exact .erpair (.uint64 0) (.uint64 0)
  | size24 => exact .erpair (.erpair (.uint64 0) (.uint64 0)) (.uint64 0)
  | size32 => exact absurd rfl hn

theorem padded_length (n : FixedStringSize) {a : List UInt8} (ha : a.length ≤ n.toNat) :
    (a ++ List.replicate (n.toNat - a.length) 0).length = n.storage.byteSize := by
  rw [List.length_append, List.length_replicate, n.storage_byteSize]
  omega

end FixedStringSize

theorem fixedString_eq (n : FixedStringSize) (verify : Bool) {a : List UInt8} (ha : a.length ≤ n.toNat) :
    fixedString n verify a =
      .ok (n.storage.ofBytes (a ++ List.replicate (n.toNat - a.length) 0)).endianReverse := by
  have hassign : assign verify n.storage a = .ok (n.storage.memcpy a) := by
    rw [← n.storage_byteSize] at ha
    cases verify <;> simp [assign, ha] <;> rfl
  rw [fixedString, fixedStringImpl, hassign, Storage.memcpy, n.storage_bytes, List.drop_replicate]
  rfl

theorem strnlen_append_replicate {a : List UInt8} (ha : ∀ x ∈ a, x ≠ 0) (k : Nat) :
    strnlen (a ++ List.replicate k 0) (a.length + k) = a.length := by
  rw [strnlen, List.take_of_length_le (by simp), List.takeWhile_append_of_pos (by simpa using ha),
    List.takeWhile_replicate]
  simp

/-- A string without NUL bytes that fits reads back from its fixed string. -/
theorem toString_fixedString (n : FixedStringSize) (verify : Bool) {a : List UInt8}
    (ha : ∀ x ∈ a, x ≠ 0) (hlen : a.length ≤ n.toNat) :
    ∃ fa, fixedString n verify a = .ok fa ∧ fa.toString = a := by
  refine ⟨_, fixedString_eq n verify hlen, ?_⟩
  have hP := n.padded_length hlen
  have hlenP : strnlen (a ++ List.replicate (n.toNat - a.length) 0) n.toNat = a.length := by
    have h := strnlen_append_replicate ha (n.toNat - a.length)
    rwa [show a.length + (n.toNat - a.length) = n.toNat by omega] at h
  simp only [Storage.toString]
  rw [Storage.endianReverse_endianReverse_ofBytes _ hP, Storage.bytes_ofBytes _ hP,
    Storage.byteSize_ofBytes, n.storage_byteSize, hlenP, List.take_left' rfl]

theorem toString_fixedString_hive :
    ∃ fa, fixedString .size24 true [104, 105, 118, 101] = .ok fa ∧ fa.toString = [104, 105, 118, 101] :=
  toString_fixedString .size24 true (by decide +kernel) (by decide)

theorem fixedString_lt_iff (n : FixedStringSize) (verify : Bool) {a b : List UInt8}
    (hla : a.length ≤ n.toNat) (hlb : b.length ≤ n.toNat) :
    ∃ fa fb, fixedString n verify a = .ok fa ∧ fixedString n verify b = .ok fb ∧
      (fa.lt fb = true ↔ n.storage.reverseOrder (a ++ List.replicate (n.toNat - a.length) 0) <
        n.storage.reverseOrder (b ++ List.replicate (n.toNat - b.length) 0)) := by
  have hPa := n.padded_length hla
  have hPb := n.padded_length hlb
  refine ⟨_, _, fixedString_eq n verify hla, fixedString_eq n verify hlb, ?_⟩
  rw [Storage.endianReverse_ofBytes _ hPa, Storage.endianReverse_ofBytes _ hPb]
  exact Storage.lt_loadBE_iff _ (Storage.reverseOrder_length _ hPa) (Storage.reverseOrder_length _ hPb)

theorem append_replicate_lt_iff {a b : List UInt8} (ha : ∀ x ∈ a, x ≠ 0) (hb : ∀ x ∈ b, x ≠ 0)
    {k : Nat} (hla : a.length ≤ k) (hlb : b.length ≤ k) :
    a ++ List.replicate (k - a.length) 0 < b ++ List.replicate (k - b.length) 0 ↔ a < b := by
  induction a generalizing b k with
  | nil =>
    cases b with
    | nil => simp [List.lt_irrefl]
    | cons y b =>
      obtain ⟨k, rfl⟩ : ∃ k', k = k' + 1 := ⟨k - 1, by simp at hlb; omega⟩
      have hy : 0 < y := UInt8.pos_iff_ne_zero.2 (hb y (by simp))
      simp [List.replicate_succ, List.cons_lt_cons_iff, hy]
  | cons x a ih =>
    obtain ⟨k, rfl⟩ : ∃ k', k = k' + 1 := ⟨k - 1, by simp at hla; omega⟩
    cases b with
    | nil =>
      have hx : x ≠ 0 := ha x (by simp)
      simp [List.replicate_succ, List.cons_lt_cons_iff, hx]
    | cons y b =>
      simp only [List.length_cons] at hla hlb
      rw [List.length_cons, List.length_cons, Nat.add_sub_add_right, Nat.add_sub_add_right,
        List.cons_append, List.cons_append, List.cons_lt_cons_iff, List.cons_lt_cons_iff,
        ih (fun z hz => ha z (List.mem_cons_of_mem x hz)) (fun z hz => hb z (List.mem_cons_of_mem y hz))
          (by omega) (by omega)]

/-- With `uint64_t` words, as for `fixed_string<16>` and `fixed_string<24>`, fixed strings
compare as the strings do. -/
theorem fixedString_lt_iff_of_uint64 {n : FixedStringSize} (hn : n ≠ .size32) (verify : Bool)
    {a b : List UInt8} (ha : ∀ x ∈ a, x ≠ 0) (hb : ∀ x ∈ b, x ≠ 0) (hla : a.length ≤ n.toNat)
    (hlb : b.length ≤ n.toNat) :
    ∃ fa fb, fixedString n verify a = .ok fa ∧ fixedString n verify b = .ok fb ∧ (fa.lt fb = true ↔ a < b) := by
  obtain ⟨fa, fb, hfa, hfb, hlt⟩ := fixedString_lt_iff n verify hla hlb
  have hPa := n.padded_length hla
  have hPb := n.padded_length hlb
  have hwords := FixedStringSize.storage_uint64Words hn
  rw [Storage.reverseOrder_of_uint64Words hwords hPa, Storage.reverseOrder_of_uint64Words hwords hPb,
    append_replicate_lt_iff ha hb hla hlb] at hlt
  exact ⟨fa, fb, hfa, hfb, hlt⟩

theorem fixedString_lt_iff_of_uint64_sample :
    ∃ fa fb, fixedString .size16 true [97, 97, 97, 97, 97, 97, 97, 97, 98] = .ok fa ∧
      fixedString .size16 true [97, 97, 97, 97, 97, 97, 97, 98, 97] = .ok fb ∧
      (fa.lt fb = true ↔
        ([97, 97, 97, 97, 97, 97, 97, 97, 98] : List UInt8) < [97, 97, 97, 97, 97, 97, 97, 98, 97]) :=
  fixedString_lt_iff_of_uint64 (by decide) true (by decide +kernel) (by decide +kernel) (by decide)
    (by decide)

/-- `fixed_string<32>` orders `"aaaaaaaab"` after `"aaaaaaaba"`: its `uint128` words compare
byte 8 before byte 7. -/
theorem fixed_string_32_misorders :
    ([97, 97, 97, 97, 97, 97, 97, 97, 98] : List UInt8) < [97, 97, 97, 97, 97, 97, 97, 98, 97] ∧
      fixedString .size32 true [97, 97, 97, 97, 97, 97, 97, 97, 98] =
        .ok (.erpair (.uint128 0x62000000000000006161616161616161) (.uint128 0)) ∧
      fixedString .size32 true [97, 97, 97, 97, 97, 97, 97, 98, 97] =
        .ok (.erpair (.uint128 0x61000000000000006161616161616162) (.uint128 0)) ∧
      (Storage.erpair (.uint128 0x61000000000000006161616161616162) (.uint128 0)).lt
        (.erpair (.uint128 0x62000000000000006161616161616161) (.uint128 0)) = true := by
  refine ⟨by decide, by decide, by decide, ?_⟩
  simp only [Storage.lt_erpair, Storage.lt_uint128]
  decide

end Protocol
end HiveChain
