import HiveChain.Protocol.AssetSymbolSpec
import HiveChain.Protocol.LegacyAsset

/-!
# HiveChain.Protocol.LegacyAssetSpec

`legacy_asset::from_string` of `legacy_asset::to_string`, for HIVE, HBD and VESTS, with the tickers
of either build.

* `to_string` writes the quotient by the precision `10 ^ k`, a dot, the digits of the precision
  plus the remainder with the leading one erased, a space and the ticker.
* When the remainder is not negative (a non-negative amount, or a negative multiple of the
  precision) the erased number is `10 ^ k + r`, whose last `k` digits are `r`: the text reads
  back as the asset.
* When the amount is negative with a remainder, `prec + fract` lies below `10 ^ k` and prints in
  fewer digits: the text has fewer than `k` decimals, names another value, and `from_string`
  rejects it with `Incorrect decimal places`.
-/

namespace HiveChain
namespace Protocol

open Digits

/-! ## Characters -/

theorem digitChar_ne {d : Nat} (hd : d < 10) {c : Char} (hc : c.toNat < 48) : digitChar d ≠ c := by
  intro h
  have hnat := digitChar_toNat hd
  rw [h] at hnat
  omega

theorem isSpace_digitChar {d : Nat} (hd : d < 10) : isSpace (digitChar d) = false := by
  unfold isSpace
  simp [digitChar_ne hd (show ' '.toNat < 48 by decide), digitChar_ne hd (show '\t'.toNat < 48 by decide),
    digitChar_ne hd (show '\n'.toNat < 48 by decide), digitChar_ne hd (show '\x0b'.toNat < 48 by decide),
    digitChar_ne hd (show '\x0c'.toNat < 48 by decide), digitChar_ne hd (show '\r'.toNat < 48 by decide)]

theorem dropWhile_eq_self_of_head {p : Char → Bool} {l : List Char} (h : ∀ c ∈ l.head?, p c = false) :
    l.dropWhile p = l := by
  cases l with
  | nil => rfl
  | cons c t =>
    rw [List.dropWhile_cons, if_neg]
    simpa using h

theorem trim_eq_self {s : List Char} (hh : ∀ c ∈ s.head?, isSpace c = false)
    (hl : ∀ c ∈ s.getLast?, isSpace c = false) : trim s = s := by
  unfold trim
  rw [dropWhile_eq_self_of_head hh, dropWhile_eq_self_of_head (by rwa [List.head?_reverse]),
    List.reverse_reverse]

theorem findIdx?_append_cons {p : Char → Bool} {l m : List Char} {c : Char}
    (hl : ∀ x ∈ l, p x = false) (hc : p c = true) : (l ++ c :: m).findIdx? p = some l.length := by
  rw [List.findIdx?_append, List.findIdx?_eq_none_iff.2 hl, List.findIdx?_cons, if_pos hc]
  simp

/-! ## `fc::to_string` and `fc::to_int64` -/

theorem int64ToString_natCast (n : Nat) : int64ToString n = (printBE 10 n).map digitChar := by
  simp [int64ToString]

theorem int64ToString_neg_natCast {n : Nat} (hn : 0 < n) :
    int64ToString (-(n : Int)) = '-' :: (printBE 10 n).map digitChar := by
  simp [int64ToString, hn]

theorem int64ToString_pow_add_drop {k r : Nat} (hr : r < 10 ^ k) :
    (int64ToString ((10 ^ k + r : Nat) : Int)).drop 1 = (fixedBE 10 k r).map digitChar := by
  rw [int64ToString_natCast, printBE_pow_add (by decide) hr]
  rfl

theorem int64ToString_drop_length_lt {k n : Nat} (hk : 0 < k) (hn : n < 10 ^ k) :
    ((int64ToString (n : Int)).drop 1).length < k := by
  rw [int64ToString_natCast, List.length_drop, List.length_map]
  have hle := printBE_length_le (by decide) hk hn
  have hpos := List.length_pos_of_ne_nil (printBE_ne_nil (b := 10) n)
  omega

theorem int64ToString_ne {q : Int} {c : Char} (hc : c ∈ int64ToString q) : c ≠ ' ' ∧ c ≠ '.' := by
  unfold int64ToString at hc
  rw [List.mem_append] at hc
  rcases hc with hc | hc
  · split at hc
    · rw [List.mem_singleton] at hc
      subst hc
      decide
    · simp at hc
  · obtain ⟨d, hd, rfl⟩ := List.mem_map.1 hc
    have hd10 := printBE_lt (by decide) _ d hd
    exact ⟨digitChar_ne hd10 (by decide), digitChar_ne hd10 (by decide)⟩

theorem int64ToString_head (q : Int) : ∀ c ∈ (int64ToString q).head?, isSpace c = false := by
  intro c hc
  unfold int64ToString at hc
  split at hc
  · simp only [List.singleton_append, List.head?_cons, Option.mem_def, Option.some.injEq] at hc
    subst hc
    decide
  · obtain ⟨d, ds, hds⟩ := List.exists_cons_of_ne_nil (printBE_ne_nil (b := 10) q.natAbs)
    rw [List.nil_append, hds, List.map_cons, List.head?_cons, Option.mem_def, Option.some.injEq] at hc
    subst hc
    exact isSpace_digitChar (printBE_lt (by decide) q.natAbs d (by rw [hds]; exact List.mem_cons_self))

theorem int64ToString_ne_nil (q : Int) : int64ToString q ≠ [] := by
  unfold int64ToString
  simp [printBE_ne_nil]

theorem toInt64_digits {ds : List Nat} (hne : ds ≠ []) (hdig : ∀ d ∈ ds, d < 10)
    (hle : readBE 10 ds ≤ 2 ^ 63 - 1) : toInt64 (ds.map digitChar) = .ok (readBE 10 ds : Nat) := by
  have hread := readDecimal_map_digitChar hdig
  have hall := all_isDigitChar_map_digitChar hdig
  have hcond : ds.map digitChar ≠ [] ∧ (ds.map digitChar).all isDigitChar = true ∧
      readDecimal (ds.map digitChar) ≤ 2 ^ 63 - 1 := ⟨by simpa using hne, hall, hread ▸ hle⟩
  obtain ⟨d, ds', rfl⟩ := List.exists_cons_of_ne_nil hne
  have hd := hdig d List.mem_cons_self
  unfold toInt64
  rw [cstr_map_digitChar hdig]
  split
  · rename_i h
    rw [List.map_cons, List.cons.injEq] at h
    exact absurd h.1 (digitChar_ne hd (by decide))
  · rename_i h
    rw [List.map_cons, List.cons.injEq] at h
    exact absurd h.1 (digitChar_ne hd (by decide))
  · dsimp only
    rw [if_pos hcond, hread]
    rfl

theorem toInt64_neg_digits {ds : List Nat} (hne : ds ≠ []) (hdig : ∀ d ∈ ds, d < 10)
    (hle : readBE 10 ds ≤ 2 ^ 63) :
    toInt64 ('-' :: ds.map digitChar) = .ok (-(readBE 10 ds : Nat) : Int) := by
  have hread := readDecimal_map_digitChar hdig
  have hall := all_isDigitChar_map_digitChar hdig
  have hcond : ds.map digitChar ≠ [] ∧ (ds.map digitChar).all isDigitChar = true ∧
      readDecimal (ds.map digitChar) ≤ 2 ^ 63 := ⟨by simpa using hne, hall, hread ▸ hle⟩
  have hcstr : cstr ('-' :: ds.map digitChar) = '-' :: ds.map digitChar := by
    have h := cstr_map_digitChar hdig
    unfold cstr at h ⊢
    rw [List.takeWhile_cons_of_pos (by decide), h]
  unfold toInt64
  rw [hcstr]
  split
  · rename_i ds' h
    obtain ⟨-, rfl⟩ := List.cons.inj h
    dsimp only
    rw [if_pos hcond, hread]
    rfl
  · rename_i h
    exact absurd (List.cons.inj h).1 (by decide)
  · rename_i h _
    exact absurd rfl (h _)

theorem printBE_append_fixedBE_lt (n k r : Nat) : ∀ d ∈ printBE 10 n ++ fixedBE 10 k r, d < 10 := by
  intro d hd
  rcases List.mem_append.1 hd with hd | hd
  · exact printBE_lt (by decide) n d hd
  · exact fixedBE_lt (by decide) d hd

theorem toInt64_scaled {k : Nat} {q : Int} (hlo : -2 ^ 63 ≤ q * 10 ^ k) (hhi : q * 10 ^ k ≤ 2 ^ 63 - 1) :
    toInt64 (int64ToString q ++ (fixedBE 10 k 0).map digitChar) = .ok (q * 10 ^ k) := by
  have hval (n : Nat) : readBE 10 (printBE 10 n ++ fixedBE 10 k 0) = n * 10 ^ k := by
    rw [readBE_append, readBE_printBE, readBE_fixedBE, fixedBE_length, Nat.zero_mod, Nat.add_zero]
  have hne (n : Nat) : printBE 10 n ++ fixedBE 10 k 0 ≠ [] := by simp [printBE_ne_nil]
  rcases le_or_gt 0 q with hq | hq
  · -- digits only
    obtain ⟨n, rfl⟩ := Int.eq_ofNat_of_zero_le hq
    have hcast : ((n * 10 ^ k : Nat) : Int) = (n : Int) * 10 ^ k := by push_cast; ring
    rw [int64ToString_natCast, ← List.map_append, toInt64_digits (hne n) (printBE_append_fixedBE_lt n k 0)
      (by rw [hval]; omega), hval, hcast]
  · -- a minus sign and the digits of the magnitude
    obtain ⟨n, rfl⟩ : ∃ n : Nat, q = -(n : Int) := ⟨q.natAbs, by omega⟩
    have hcast : ((n * 10 ^ k : Nat) : Int) = (n : Int) * 10 ^ k := by push_cast; ring
    rw [neg_mul] at hlo hhi ⊢
    rw [int64ToString_neg_natCast (by omega), List.cons_append, ← List.map_append,
      toInt64_neg_digits (hne n) (printBE_append_fixedBE_lt n k 0) (by rw [hval]; omega), hval, hcast]

theorem toInt64_one_fixedBE {k r : Nat} (hr : r < 10 ^ k) (hk : 10 ^ k + r ≤ 2 ^ 63 - 1) :
    toInt64 ('1' :: (fixedBE 10 k r).map digitChar) = .ok ((10 ^ k + r : Nat) : Int) := by
  have hval : readBE 10 (1 :: fixedBE 10 k r) = 10 ^ k + r := by
    rw [readBE_cons, readBE_fixedBE, fixedBE_length, Nat.mod_eq_of_lt hr, Nat.one_mul]
  have hdig : ∀ d ∈ 1 :: fixedBE 10 k r, d < 10 := by
    intro d hd
    rcases List.mem_cons.1 hd with rfl | hd
    · decide
    · exact fixedBE_lt (by decide) d hd
  rw [show '1' = digitChar 1 from rfl, ← List.map_cons, toInt64_digits (by simp) hdig (by rw [hval]; exact hk),
    hval]

theorem int64Add_of_range {x y : Int} (hlo : -2 ^ 63 ≤ x + y) (hhi : x + y ≤ 2 ^ 63 - 1) :
    LegacyAsset.int64Add x y = x + y := by
  unfold LegacyAsset.int64Add
  exact Int.bmod_eq_of_le (by omega) (by omega)

theorem tmod_nonpos {a : Int} (b : Int) (ha : a ≤ 0) : a.tmod b ≤ 0 := by
  have h := Int.tmod_nonneg b (show 0 ≤ -a by omega)
  rw [Int.neg_tmod] at h
  omega

theorem AssetSymbolType.fromAssetNum_assetNum (sym : AssetSymbolType) :
    AssetSymbolType.fromAssetNum sym.assetNum = sym :=
  AssetSymbolType.ext (Nat.mod_eq_of_lt sym.assetNum_lt)

/-! ## `to_string` and `from_string` -/

namespace LegacyAsset

theorem toString_eq (net : Network) {a : LegacyAsset} {p : Int} (hp : precision a.symbol = p) (h1 : 1 < p) :
    a.toString net = int64ToString (a.amount.tdiv p) ++
      '.' :: ((int64ToString (p + a.amount.tmod p)).drop 1 ++ ' ' :: a.assetNumToString net) := by
  unfold toString
  dsimp only
  rw [hp, if_pos h1]
  simp

theorem fromString_dotted (net : Network) {I F N : List Char} (hI : ∀ c ∈ I, c ≠ ' ' ∧ c ≠ '.')
    (hF : ∀ c ∈ F, c ≠ ' ' ∧ c ≠ '.')
    (ht : trim (I ++ '.' :: (F ++ ' ' :: N)) = I ++ '.' :: (F ++ ' ' :: N)) :
    fromString net (I ++ '.' :: (F ++ ' ' :: N)) = (do
      let assetNum ← stringToAssetNum net N (F.length % 2 ^ 8)
      let symbol := AssetSymbolType.fromAssetNum assetNum
      let prec := precision symbol
      let precString := int64ToString prec
      let amount ← toInt64 (if precString.isEmpty then I else I ++ precString.drop 1)
      let newValue := (← toInt64 ('1' :: F)) - prec
      let check := int64Add amount newValue
      if (amount > 0 ∧ newValue > 0 ∧ check < 0) ∨ (amount < 0 ∧ newValue < 0 ∧ check > 0) then
        throw "Couldn't parse int64_t"
      else pure ⟨amount + newValue, symbol⟩) := by
  have hspace : I ++ '.' :: (F ++ ' ' :: N) = (I ++ '.' :: F) ++ ' ' :: N := by simp
  have hdotted : I ++ '.' :: (F ++ ' ' :: N) = (I ++ ['.']) ++ (F ++ ' ' :: N) := by simp
  have hsp : (I ++ '.' :: (F ++ ' ' :: N)).findIdx? (· = ' ') = some (I.length + 1 + F.length) := by
    rw [hspace, findIdx?_append_cons _ (by decide)]
    · simp only [List.length_append, List.length_cons, Option.some.injEq]
      omega
    · intro x hx
      rcases List.mem_append.1 hx with hx | hx
      · simpa using (hI x hx).1
      · rcases List.mem_cons.1 hx with rfl | hx
        · decide
        · simpa using (hF x hx).1
  have hdot : (I ++ '.' :: (F ++ ' ' :: N)).findIdx? (· = '.') = some I.length :=
    findIdx?_append_cons (fun x hx => by simpa using (hI x hx).2) (by decide)
  have hsym : (I ++ '.' :: (F ++ ' ' :: N)).drop (I.length + 1 + F.length + 1) = N := by
    rw [show I ++ '.' :: (F ++ ' ' :: N) = (I ++ '.' :: F ++ [' ']) ++ N by simp]
    exact List.drop_left' (by simp; omega)
  have hfract : ((I ++ '.' :: (F ++ ' ' :: N)).drop (I.length + 1)).take
      (I.length + 1 + F.length - I.length - 1) = F := by
    rw [hdotted, List.drop_left' (by simp), show I.length + 1 + F.length - I.length - 1 = F.length by omega]
    exact List.take_left' rfl
  have hint : (I ++ '.' :: (F ++ ' ' :: N)).take I.length = I := List.take_left' rfl
  unfold fromString
  dsimp only
  rw [ht, hsp, hdot]
  dsimp only
  rw [if_pos (by omega), hsym, hfract, hint]
  rfl

theorem fromString_toString_of (net : Network) {a : LegacyAsset} {k : Nat} {N : List Char}
    (hprec : precision a.symbol = 10 ^ k) (hk : 0 < k) (hk6 : k ≤ 6) (hname : a.assetNumToString net = N)
    (hlast : ∃ c, N.getLast? = some c ∧ isSpace c = false)
    (hparse : ∀ d, stringToAssetNum net N d =
      if d = k then .ok a.symbol.assetNum else .error "Incorrect decimal places")
    (hlo : -2 ^ 63 ≤ a.amount) (hhi : a.amount ≤ 2 ^ 63 - 1) :
    fromString net (a.toString net) =
      if 0 ≤ a.amount ∨ a.amount.tmod (precision a.symbol) = 0 then .ok a
      else .error "Incorrect decimal places" := by
  have hpow : (10 : Int) ^ k = ((10 ^ k : Nat) : Int) := by push_cast; rfl
  have hp1 : (1 : Int) < 10 ^ k := by
    rw [hpow]
    exact_mod_cast Nat.one_lt_pow hk.ne' (by decide)
  have hk63 : (10 : Nat) ^ k ≤ 10 ^ 6 := Nat.pow_le_pow_right (by decide) hk6
  rw [toString_eq net hprec hp1, hname, hprec]
  set q := a.amount.tdiv (10 ^ k)
  set r := a.amount.tmod (10 ^ k)
  have hdecomp : 10 ^ k * q + r = a.amount := Int.mul_tdiv_add_tmod a.amount (10 ^ k)
  have hr_lt : r < 10 ^ k := Int.tmod_lt_of_pos a.amount (by omega)
  have hr_gt : -10 ^ k < r := Int.lt_tmod_of_pos a.amount (by omega)
  -- the remainder takes the sign of the amount
  have hsign : a.amount < 0 → r ≤ 0 := fun h => tmod_nonpos _ h.le
  have hnonneg : 0 ≤ a.amount → 0 ≤ r := Int.tmod_nonneg _
  set F := (int64ToString (10 ^ k + r)).drop 1
  have hI : ∀ c ∈ int64ToString q, c ≠ ' ' ∧ c ≠ '.' := fun c hc => int64ToString_ne hc
  have hF : ∀ c ∈ F, c ≠ ' ' ∧ c ≠ '.' := fun c hc => int64ToString_ne (List.mem_of_mem_drop hc)
  have ht : trim (int64ToString q ++ '.' :: (F ++ ' ' :: N)) = int64ToString q ++ '.' :: (F ++ ' ' :: N) := by
    apply trim_eq_self
    · rw [List.head?_append]
      obtain ⟨c, cs, hcs⟩ := List.exists_cons_of_ne_nil (int64ToString_ne_nil q)
      have hhead := int64ToString_head q
      rw [hcs] at hhead ⊢
      simpa using hhead
    · obtain ⟨c, hc, hspace⟩ := hlast
      rw [show int64ToString q ++ '.' :: (F ++ ' ' :: N) = (int64ToString q ++ '.' :: F ++ [' ']) ++ N by simp,
        List.getLast?_append, hc]
      simpa using hspace
  rw [fromString_dotted net hI hF ht, hparse]
  by_cases hr : 0 ≤ r
  · -- the fraction is `r` in exactly `k` digits
    obtain ⟨m, hmr⟩ := Int.eq_ofNat_of_zero_le hr
    have hm : m < 10 ^ k := by omega
    have hFk : F = (fixedBE 10 k m).map digitChar := by
      show (int64ToString (10 ^ k + r)).drop 1 = _
      rw [← int64ToString_pow_add_drop hm, hmr]
      push_cast
      rfl
    have hlen : F.length % 2 ^ 8 = k := by
      rw [hFk, List.length_map, fixedBE_length]
      omega
    have hzeros : (int64ToString (10 ^ k)).drop 1 = (fixedBE 10 k 0).map digitChar := by
      rw [← int64ToString_pow_add_drop (show 0 < 10 ^ k by positivity)]
      push_cast
      rfl
    have hfull : (int64ToString (10 ^ k)).isEmpty = false :=
      List.isEmpty_eq_false_iff.2 (int64ToString_ne_nil _)
    rw [if_pos hlen, if_pos (by omega), EState.except_ok_bind, AssetSymbolType.fromAssetNum_assetNum]
    dsimp only
    have hdecomp' : q * 10 ^ k + r = a.amount := by rw [mul_comm]; exact hdecomp
    have hfract : ((10 ^ k + m : Nat) : Int) - 10 ^ k = r := by push_cast; omega
    rw [hprec, hfull, if_neg Bool.false_ne_true, hzeros, toInt64_scaled (by omega) (by omega),
      EState.except_ok_bind, hFk, toInt64_one_fixedBE hm (by omega), EState.except_ok_bind, hfract,
      int64Add_of_range (by omega) (by omega), if_neg (by omega), hdecomp']
    rfl
  · -- `prec + fract` is below the precision and prints in fewer than `k` digits
    obtain ⟨n, hn⟩ := Int.eq_ofNat_of_zero_le (show 0 ≤ (10 : Int) ^ k + r by omega)
    have hlen : F.length % 2 ^ 8 ≠ k := by
      have hshort : F.length < k := by
        show ((int64ToString (10 ^ k + r)).drop 1).length < k
        rw [hn]
        exact int64ToString_drop_length_lt hk (by omega)
      omega
    rw [if_neg hlen, if_neg (by omega)]
    rfl

end LegacyAsset

/-! ## HIVE, HBD and VESTS -/

theorem stringToAssetNum_assetNumToString (net : Network) {a : LegacyAsset}
    (hl : AssetSymbolType.isLegacyNum a.symbol.assetNum) (d : Nat) :
    stringToAssetNum net (a.assetNumToString net) d =
      if d = a.symbol.decimals then .ok a.symbol.assetNum else .error "Incorrect decimal places" := by
  unfold LegacyAsset.assetNumToString AssetSymbolType.decimals
  generalize a.symbol.assetNum = n at hl ⊢
  by_cases hd : d = n &&& smtAssetNumPrecisionMask
  · subst hd
    rcases hl with rfl | rfl | rfl <;> cases net <;> decide
  · rw [if_neg hd]
    rcases hl with rfl | rfl | rfl <;> cases net <;> unfold stringToAssetNum <;> simp +decide <;>
      rw [if_neg fun h => hd (h.trans (by decide))] <;> rfl

theorem decimals_of_isLegacyNum {sym : AssetSymbolType} (hl : AssetSymbolType.isLegacyNum sym.assetNum) :
    sym.decimals = 3 ∨ sym.decimals = 6 := by
  unfold AssetSymbolType.decimals
  rcases hl with h | h | h <;> rw [h] <;> decide

namespace LegacyAsset

theorem assetNumToString_last (net : Network) {a : LegacyAsset}
    (hl : AssetSymbolType.isLegacyNum a.symbol.assetNum) :
    ∃ c, (a.assetNumToString net).getLast? = some c ∧ isSpace c = false := by
  unfold assetNumToString
  generalize a.symbol.assetNum = n at hl ⊢
  rcases hl with rfl | rfl | rfl <;> cases net <;> exact ⟨_, rfl, rfl⟩

/-- `from_string` reads back what `to_string` prints for HIVE, HBD and VESTS, except a negative
amount with a fraction. -/
theorem fromString_toString (net : Network) {a : LegacyAsset}
    (hl : AssetSymbolType.isLegacyNum a.symbol.assetNum)
    (hlo : -2 ^ 63 ≤ a.amount) (hhi : a.amount ≤ 2 ^ 63 - 1) :
    fromString net (a.toString net) =
      if 0 ≤ a.amount ∨ a.amount.tmod (precision a.symbol) = 0 then .ok a
      else .error "Incorrect decimal places" := by
  have hk := decimals_of_isLegacyNum hl
  have hprec : precision a.symbol = 10 ^ a.symbol.decimals := by
    unfold precision
    rcases hk with h | h <;> rw [h] <;> rfl
  exact fromString_toString_of net hprec (by omega) (by omega) rfl (assetNumToString_last net hl)
    (stringToAssetNum_assetNumToString net hl) hlo hhi

theorem fromString_toString_tbd :
    fromString .testnet (LegacyAsset.toString .testnet ⟨-2000, AssetSymbolType.fromAssetNum hiveAssetNumHbd⟩) =
      .ok ⟨-2000, AssetSymbolType.fromAssetNum hiveAssetNumHbd⟩ := by
  rw [fromString_toString .testnet (by decide) (by decide) (by decide)]
  decide

/-- `-0.001 HIVE` prints as `0.99 HIVE` and `-1.500 HIVE` as `-1.00 HIVE`: other values, with too
few decimals for `from_string`. -/
theorem negative_fraction_misprinted :
    (⟨-1, AssetSymbolType.fromAssetNum hiveAssetNumHive⟩ : LegacyAsset).toString .mainnet =
        "0.99 HIVE".toList ∧
      fromString .mainnet "0.99 HIVE".toList = .error "Incorrect decimal places" ∧
      (⟨-1500, AssetSymbolType.fromAssetNum hiveAssetNumHive⟩ : LegacyAsset).toString .mainnet =
        "-1.00 HIVE".toList ∧
      fromString .mainnet "-1.00 HIVE".toList = .error "Incorrect decimal places" :=
  ⟨by decide, by decide, by decide, by decide⟩

end LegacyAsset

end Protocol
end HiveChain
