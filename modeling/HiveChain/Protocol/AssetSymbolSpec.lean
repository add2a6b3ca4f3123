import Mathlib.Data.Nat.Bitwise
import Mathlib.Data.List.TakeWhile
import HiveChain.Lib.EState
import HiveChain.Protocol.AssetSymbol

/-!
# HiveChain.Protocol.AssetSymbolSpec

The NAI string and the binary form of a symbol read back as the symbol.

* `validate` accepts HIVE, HBD and VESTS and the SMT numbers with data digits in range, the
  control bit and at most twelve decimals. Such a number is its data digits, the control bit and
  its decimals, so `asset_num_from_nai` rebuilds it from its NAI — unless the data digits are
  those of HBD, HIVE or VESTS (1, 2 and 3), which `asset_num_from_nai` maps to the fixed
  numbers.
* A valid SMT number has its control bit set, while the first byte of a legacy symbol is its
  precision, 3 or 6: four bytes of an asset number never begin a legacy symbol, and
  `unpack` reads back exactly what `pack` wrote, in both modes and in both builds.
-/

namespace HiveChain
namespace Protocol

open Digits

namespace AssetSymbolType

/-! ## Validity -/

/-- The data digits of an asset number. -/
def dataDigits (sym : AssetSymbolType) : Nat := sym.assetNum >>> hiveNaiShift

theorem validate_eq_ok {sym : AssetSymbolType} :
    sym.validate = .ok () ↔ isLegacyNum sym.assetNum ∨
      (smtMinNai ≤ sym.dataDigits ∧ sym.dataDigits ≤ smtMaxNai ∧
        sym.assetNum &&& smtAssetNumControlMask = smtAssetNumControlMask ∧
        sym.assetNum &&& smtAssetNumPrecisionMask ≤ hiveAssetMaxDecimals) := by
  unfold validate dataDigits
  by_cases h : isLegacyNum sym.assetNum
  · rw [if_pos h]
    exact ⟨fun _ => Or.inl h, fun _ => rfl⟩
  · rw [if_neg h]
    dsimp only
    rw [EState.except_ite_throw_eq_ok]
    simp only [h, false_or, ge_iff_le]

theorem assetNum_eq_of_control {n : Nat} (hc : n &&& smtAssetNumControlMask = smtAssetNumControlMask) :
    (n >>> hiveNaiShift <<< hiveNaiShift ||| smtAssetNumControlMask ||| n &&& smtAssetNumPrecisionMask) =
      n := by
  unfold smtAssetNumControlMask smtAssetNumPrecisionMask hiveNaiShift hiveAssetSymbolPrecisionBits
    hiveAssetControlBits at *
  have hbit : n / 16 % 2 = 1 := by
    rw [show (0x10 : Nat) = 2 ^ 4 from rfl, Nat.and_two_pow] at hc
    cases ht : n.testBit 4
    · rw [ht] at hc
      simp at hc
    · rw [Nat.testBit_eq_decide_div_mod_eq, decide_eq_true_eq] at ht
      exact ht
  have hlow : n &&& 0xF = n % 16 := Nat.and_two_pow_sub_one_eq_mod n 4
  have hmid : 0x10 ||| n % 16 = n % 16 + 16 := by
    rw [Nat.or_comm]
    show n % 16 ||| 2 ^ 4 = n % 16 + 2 ^ 4
    exact Nat.or_two_pow_eq_add_of_lt (Nat.mod_lt n (by decide))
  rw [hlow, Nat.or_assoc, hmid,
    ← Nat.shiftLeft_add_eq_or_of_lt (show n % 16 + 16 < 2 ^ (4 + 1) by omega),
    Nat.shiftLeft_eq, Nat.shiftRight_eq_div_pow]
  omega

theorem decimals_le_of_valid {sym : AssetSymbolType} (hv : sym.validate = .ok ()) :
    sym.decimals ≤ hiveAssetMaxDecimals := by
  unfold decimals
  rcases validate_eq_ok.1 hv with hl | ⟨-, -, -, hd⟩
  · rcases hl with h | h | h <;> rw [h] <;> decide
  · exact hd

end AssetSymbolType

/-! ## The check digit -/

theorem dammTable_getD_le (i : Nat) : dammTable.getD i 0 ≤ 90 := by
  have hall : ∀ x ∈ dammTable, x ≤ 90 := by decide
  rw [List.getD_eq_getElem?_getD]
  cases h : dammTable[i]? with
  | none => simp
  | some x => exact hall x (List.mem_of_getElem? h)

theorem dammChecksum8digit_ok {value : Nat} (h : value < 100000000) :
    ∃ c, dammChecksum8digit value = .ok c ∧ c < 10 := by
  unfold dammChecksum8digit
  dsimp only
  rw [if_pos h]
  refine ⟨_, rfl, ?_⟩
  exact Nat.lt_of_le_of_lt (Nat.div_le_div_right (dammTable_getD_le _)) (by decide)

/-! ## The NAI string -/

namespace AssetSymbolType

theorem toNai_smt {sym : AssetSymbolType} (hl : ¬isLegacyNum sym.assetNum)
    (hd : sym.dataDigits < 100000000) :
    ∃ c, dammChecksum8digit sym.dataDigits = .ok c ∧ c < 10 ∧
      sym.toNai = .ok (sym.dataDigits * 10 + c) := by
  obtain ⟨c, hc, hc10⟩ := dammChecksum8digit_ok hd
  refine ⟨c, hc, hc10, ?_⟩
  have hspace : sym.space = .smtNaiSpace := by
    unfold space
    rw [if_neg hl]
  unfold isLegacyNum at hl
  simp only [not_or] at hl
  obtain ⟨h₁, h₂, h₃⟩ := hl
  unfold toNai
  rw [if_neg h₁, if_neg h₂, if_neg h₃, hspace]
  show (dammChecksum8digit sym.dataDigits >>= fun c => pure ((sym.dataDigits * 10 + c) % 2 ^ 32)) = _
  rw [hc]
  show Except.ok ((sym.dataDigits * 10 + c) % 2 ^ 32) = _
  rw [Nat.mod_eq_of_lt (by omega)]

theorem toNaiString_of_toNai {sym : AssetSymbolType} {x : Nat} (h : sym.toNai = .ok x)
    (hx : x < 10 ^ 9) :
    sym.toNaiString = .ok ('@' :: '@' :: (fixedBE 10 9 x).map digitChar) := by
  unfold toNaiString
  rw [h]
  simp only [fixedBE, Nat.div_div_eq_div_mul, List.nil_append, List.cons_append, List.map_cons,
    List.map_nil]
  rw [Nat.mod_eq_of_lt (show x / 100000000 < 10 by omega)]
  rfl

end AssetSymbolType

theorem lexicalCastUnsigned_digits {bits : Nat} {ds : List Nat} (hne : ds ≠ [])
    (hdig : ∀ d ∈ ds, d < 10) (hlt : readBE 10 ds < 2 ^ bits) :
    lexicalCastUnsigned bits (ds.map digitChar) = .ok (readBE 10 ds) := by
  have hread := readDecimal_map_digitChar hdig
  have hall := all_isDigitChar_map_digitChar hdig
  have hcond : ds.map digitChar ≠ [] ∧ (ds.map digitChar).all isDigitChar = true ∧
      readDecimal (ds.map digitChar) < 2 ^ bits := ⟨by simpa using hne, hall, hread ▸ hlt⟩
  obtain ⟨d, ds', rfl⟩ := List.exists_cons_of_ne_nil hne
  have hd := digitChar_toNat (hdig d List.mem_cons_self)
  unfold lexicalCastUnsigned
  dsimp only
  split
  · rename_i h
    rw [List.map_cons, List.cons.injEq] at h
    rw [h.1] at hd
    simp at hd
    omega
  · rename_i h
    rw [List.map_cons, List.cons.injEq] at h
    rw [h.1] at hd
    simp at hd
    omega
  · rw [if_pos hcond, hread]
    rfl

theorem cstr_map_digitChar {ds : List Nat} (hdig : ∀ d ∈ ds, d < 10) :
    cstr (ds.map digitChar) = ds.map digitChar := by
  apply List.takeWhile_eq_self_iff.2
  intro c hc
  obtain ⟨d, hd, rfl⟩ := List.mem_map.1 hc
  have hnat := digitChar_toNat (hdig d hd)
  simp only [ne_eq, decide_eq_true_eq]
  intro h
  rw [h] at hnat
  simp at hnat
  omega

theorem fromNaiString_nai {x : Nat} (hx : x < 10 ^ 9) (decimalPlaces : Nat) :
    fromNaiString ('@' :: '@' :: (fixedBE 10 9 x).map digitChar) decimalPlaces =
      fromNai x decimalPlaces := by
  have hdig : ∀ d ∈ fixedBE 10 9 x, d < 10 := fixedBE_lt (by decide)
  -- no digit is a `NUL`, so C sees all eleven characters
  have hcstr := cstr_map_digitChar hdig
  have hlen : (cstr ('@' :: '@' :: (fixedBE 10 9 x).map digitChar)).length =
      hiveAssetSymbolNaiStringLength - 1 := by
    have hat : cstr ('@' :: '@' :: (fixedBE 10 9 x).map digitChar) =
        '@' :: '@' :: cstr ((fixedBE 10 9 x).map digitChar) := by
      simp [cstr]
    rw [hat, hcstr]
    simp [hiveAssetSymbolNaiStringLength, hiveAssetSymbolNaiLength]
  have hcast : lexicalCastUnsigned 32 ((fixedBE 10 9 x).map digitChar) = .ok x := by
    rw [lexicalCastUnsigned_digits (by simp [fixedBE]) hdig (by rw [readBE_fixedBE]; omega),
      readBE_fixedBE, Nat.mod_eq_of_lt hx]
  unfold fromNaiString
  dsimp only
  rw [if_pos hlen, if_pos ⟨rfl, rfl⟩]
  show (lexicalCastUnsigned 32 (cstr ((fixedBE 10 9 x).map digitChar)) >>= fun nai =>
    fromNai nai decimalPlaces) = _
  rw [hcstr, hcast]
  rfl

theorem assetNumFromNai_smt {data c decimalPlaces : Nat} (hc : dammChecksum8digit data = .ok c)
    (hc10 : c < 10) (hlo : smtMinNai ≤ data) (hhi : data ≤ smtMaxNai) (h₁ : data ≠ hiveNaiHbd)
    (h₂ : data ≠ hiveNaiHive) (h₃ : data ≠ hiveNaiVests)
    (hdec : decimalPlaces ≤ hiveAssetMaxDecimals) :
    assetNumFromNai (data * 10 + c) decimalPlaces =
      .ok (((data <<< hiveNaiShift) ||| smtAssetNumControlMask ||| decimalPlaces) % 2 ^ 32) := by
  have hmod : (data * 10 + c) % 10 = c := by omega
  have hdiv : (data * 10 + c) / 10 = data := by omega
  unfold assetNumFromNai
  dsimp only
  rw [hmod, hdiv, EState.except_ite_throw_bind_eq_ok]
  refine ⟨⟨hlo, hhi⟩, ?_⟩
  rw [hc, EState.except_ok_bind, EState.except_ite_throw_bind_eq_ok]
  refine ⟨rfl, ?_⟩
  rw [if_neg h₂, if_neg h₁, if_neg h₃, EState.except_ite_throw_bind_eq_ok]
  exact ⟨hdec, rfl⟩

namespace AssetSymbolType

theorem fromNaiString_toNaiString {sym : AssetSymbolType} (hv : sym.validate = .ok ())
    (h₁ : sym.dataDigits ≠ hiveNaiHbd) (h₂ : sym.dataDigits ≠ hiveNaiHive)
    (h₃ : sym.dataDigits ≠ hiveNaiVests) :
    (sym.toNaiString >>= fun s => fromNaiString s sym.decimals) = .ok sym := by
  by_cases hl : isLegacyNum sym.assetNum
  · -- HIVE, HBD and VESTS: three closed computations
    rcases hl with h | h | h
    · obtain rfl : sym = fromAssetNum hiveAssetNumHive := ext (by rw [h]; rfl)
      decide
    · obtain rfl : sym = fromAssetNum hiveAssetNumHbd := ext (by rw [h]; rfl)
      decide
    · obtain rfl : sym = fromAssetNum hiveAssetNumVests := ext (by rw [h]; rfl)
      decide
  · obtain ⟨hlo, hhi, hctl, hdec⟩ := (validate_eq_ok.1 hv).resolve_left hl
    have hd : sym.dataDigits < 100000000 := by
      unfold smtMaxNai at hhi
      omega
    obtain ⟨c, hc, hc10, hnai⟩ := toNai_smt hl hd
    have hx : sym.dataDigits * 10 + c < 10 ^ 9 := by omega
    rw [toNaiString_of_toNai hnai hx, EState.except_ok_bind, fromNaiString_nai hx]
    have hdec' : sym.decimals ≤ hiveAssetMaxDecimals := hdec
    unfold fromNai
    rw [assetNumFromNai_smt hc hc10 hlo hhi h₁ h₂ h₃ hdec']
    show Except.ok (fromAssetNum _) = _
    unfold dataDigits decimals
    rw [assetNum_eq_of_control hctl]
    congr 1
    apply ext
    show sym.assetNum % 2 ^ 32 % 2 ^ 32 = sym.assetNum
    rw [Nat.mod_mod, Nat.mod_eq_of_lt sym.assetNum_lt]

theorem fromVariant_toVariant {sym : AssetSymbolType} (hv : sym.validate = .ok ()) :
    (toVariant sym >>= fun v => fromVariant v.1 v.2) =
      (sym.toNaiString >>= fun s => fromNaiString s sym.decimals) := by
  have hdec := decimals_le_of_valid hv
  unfold toVariant
  cases sym.toNaiString with
  | error e => rfl
  | ok s =>
    show fromVariant s sym.decimals = fromNaiString s sym.decimals
    unfold fromVariant
    rw [if_pos hdec]
    show fromNaiString s (sym.decimals % 2 ^ 8) = _
    unfold hiveAssetMaxDecimals at hdec
    rw [Nat.mod_eq_of_lt (by omega)]

end AssetSymbolType

theorem unpack_valid {net : Network} {bytes rest : List UInt8} {sym : AssetSymbolType}
    (h : unpack net bytes = .ok (sym, rest)) : sym.validate = .ok () := by
  have hend : ∀ read : Nat × List UInt8,
      ((AssetSymbolType.fromAssetNum read.1).validate >>= fun _ =>
        pure (AssetSymbolType.fromAssetNum read.1, read.2)) = .ok (sym, rest) →
      sym.validate = .ok () := by
    intro read h
    obtain ⟨u, hv, h⟩ := EState.except_bind_eq_ok h
    cases h
    exact hv
  unfold unpack at h
  obtain ⟨lo, -, h⟩ := EState.except_bind_eq_ok h
  dsimp only at h
  split_ifs at h
  all_goals
    obtain ⟨read, -, h⟩ := EState.except_bind_eq_ok h
    exact hend read h

/-- The NAI string and the JSON object of a valid SMT symbol read back as the symbol, and every
symbol `unpack` returns is valid. -/
theorem nai_string_round_trip :
    (∀ sym : AssetSymbolType, sym.validate = .ok () → sym.dataDigits ≠ hiveNaiHbd →
        sym.dataDigits ≠ hiveNaiHive → sym.dataDigits ≠ hiveNaiVests →
      (sym.toNaiString >>= fun s => fromNaiString s sym.decimals) = .ok sym ∧
        (toVariant sym >>= fun v => fromVariant v.1 v.2) = .ok sym) ∧
    ∀ (net : Network) (bytes rest : List UInt8) (sym : AssetSymbolType),
      unpack net bytes = .ok (sym, rest) → sym.validate = .ok () := by
  refine ⟨?json, fun _ _ _ _ h => unpack_valid h⟩
  intro sym hv h₁ h₂ h₃
  have hround := AssetSymbolType.fromNaiString_toNaiString hv h₁ h₂ h₃
  exact ⟨hround, (AssetSymbolType.fromVariant_toVariant hv).trans hround⟩

theorem nai_string_round_trip_sample :
    (AssetSymbolType.fromAssetNum 395061715).validate = .ok () ∧
      ((AssetSymbolType.fromAssetNum 395061715).toNaiString >>= fun s =>
          fromNaiString s (AssetSymbolType.fromAssetNum 395061715).decimals) =
        .ok (AssetSymbolType.fromAssetNum 395061715) :=
  ⟨by decide, (nai_string_round_trip.1 _ (by decide) (by decide) (by decide) (by decide)).1⟩

/-- The SMT number with the data digits of HBD, the control bit and three decimals validates and
unpacks from its four bytes, but its NAI string reads back as HBD; with no decimals it does not
read back at all. -/
theorem smt_nai_of_hbd_reads_back_as_hbd :
    (AssetSymbolType.fromAssetNum 51).validate = .ok () ∧
      unpack .mainnet (leBytes 4 51) = .ok (AssetSymbolType.fromAssetNum 51, []) ∧
      ((AssetSymbolType.fromAssetNum 51).toNaiString >>= fun s =>
          fromNaiString s (AssetSymbolType.fromAssetNum 51).decimals) =
        .ok (AssetSymbolType.fromAssetNum hiveAssetNumHbd) ∧
      (AssetSymbolType.fromAssetNum 48).validate = .ok () ∧
      ((AssetSymbolType.fromAssetNum 48).toNaiString >>= fun s =>
          fromNaiString s (AssetSymbolType.fromAssetNum 48).decimals) =
        .error "decimal_places == HIVE_PRECISION_HBD" := by
  decide

/-! ## The binary form -/

@[simp] theorem leBytes_length (k x : Nat) : (leBytes k x).length = k := by
  simp [leBytes]

theorem readLE_leBytes (k x : Nat) : readLE (leBytes k x) = x % 256 ^ k := by
  unfold readLE leBytes
  rw [List.map_map, ← List.map_reverse, List.reverse_reverse]
  have hid : (fixedBE 256 k x).map (UInt8.toNat ∘ UInt8.ofNat) = (fixedBE 256 k x).map id :=
    List.map_congr_left fun d hd => UInt8.toNat_ofNat_of_lt' (fixedBE_lt (by decide) d hd)
  rw [hid, List.map_id, readBE_fixedBE]

theorem leBytes_add (k m x : Nat) : leBytes (k + m) x = leBytes k x ++ leBytes m (x / 256 ^ k) := by
  unfold leBytes
  rw [Nat.add_comm, fixedBE_add, List.reverse_append, List.map_append]

theorem readBytes_append {k : Nat} {l : List UInt8} (rest : List UInt8) (h : l.length = k) :
    readBytes k (l ++ rest) = .ok (l, rest) := by
  unfold readBytes
  rw [if_pos (by simp [h])]
  subst h
  simp only [List.take_left, List.drop_left]
  rfl

theorem unpackLegacy_leBytes {ser : Nat} (assetNum : Nat) (rest : List UInt8) (hser : ser < 2 ^ 64) :
    unpackLegacy (leBytes 4 ser) ser assetNum (leBytes 4 (ser / 256 ^ 4) ++ rest) =
      .ok (assetNum, rest) := by
  unfold unpackLegacy
  rw [readBytes_append rest (leBytes_length 4 _), EState.except_ok_bind]
  dsimp only
  rw [← leBytes_add, readLE_leBytes, Nat.mod_eq_of_lt (by omega), if_pos rfl]
  rfl

namespace AssetSymbolType

theorem ne_legacy_prefix_of_valid (net : Network) {sym : AssetSymbolType} (hv : sym.validate = .ok ()) :
    sym.assetNum ≠ obsoleteSymbolSer net % 2 ^ 32 ∧ sym.assetNum ≠ obdSymbolSer net % 2 ^ 32 ∧
      sym.assetNum ≠ vestsSymbolSer % 2 ^ 32 := by
  rcases validate_eq_ok.1 hv with hl | ⟨-, -, hctl, -⟩
  · rcases hl with h | h | h <;> rw [h] <;> cases net <;> decide
  · have hclear : ∀ p ∈ [obsoleteSymbolSer net % 2 ^ 32, obdSymbolSer net % 2 ^ 32, vestsSymbolSer % 2 ^ 32],
        p &&& smtAssetNumControlMask ≠ smtAssetNumControlMask := by
      cases net <;> decide
    refine ⟨?_, ?_, ?_⟩ <;> intro h <;> rw [h] at hctl
    · exact hclear _ (by simp) hctl
    · exact hclear _ (by simp) hctl
    · exact hclear _ (by simp) hctl

theorem unpack_leBytes_four (net : Network) {sym : AssetSymbolType} (hv : sym.validate = .ok ())
    (rest : List UInt8) : unpack net (leBytes 4 sym.assetNum ++ rest) = .ok (sym, rest) := by
  obtain ⟨h₁, h₂, h₃⟩ := ne_legacy_prefix_of_valid net hv
  have hread : readLE (leBytes 4 sym.assetNum) = sym.assetNum := by
    rw [readLE_leBytes, Nat.mod_eq_of_lt (lt_of_lt_of_eq sym.assetNum_lt (by norm_num))]
  have hsym : fromAssetNum sym.assetNum = sym := ext (Nat.mod_eq_of_lt sym.assetNum_lt)
  unfold unpack
  rw [readBytes_append rest (leBytes_length 4 _), EState.except_ok_bind]
  dsimp only
  rw [hread, if_neg h₁, if_neg h₂, if_neg h₃]
  show ((fromAssetNum sym.assetNum).validate >>= fun _ =>
    pure (fromAssetNum sym.assetNum, rest)) = _
  rw [hsym, hv]
  rfl

theorem pack_four (net : Network) {mode : PackType} {sym : AssetSymbolType}
    (h : ¬(mode = .legacy ∧ sym.space = .legacySpace)) :
    pack net mode sym = .ok (leBytes 4 sym.assetNum) := by
  unfold pack
  split
  · exact absurd ⟨rfl, by assumption⟩ h
  · rfl

end AssetSymbolType

theorem unpack_leBytes_eight (net : Network) {ser assetNum : Nat} (rest : List UInt8)
    (hsel : (ser = obsoleteSymbolSer net ∧ assetNum = hiveAssetNumHive) ∨
      (ser = obdSymbolSer net ∧ assetNum = hiveAssetNumHbd) ∨
      (ser = vestsSymbolSer ∧ assetNum = hiveAssetNumVests)) :
    unpack net (leBytes 8 ser ++ rest) = .ok (AssetSymbolType.fromAssetNum assetNum, rest) := by
  have hser : ser < 2 ^ 64 := by
    rcases hsel with ⟨rfl, -⟩ | ⟨rfl, -⟩ | ⟨rfl, -⟩ <;> cases net <;> decide
  have hv : (AssetSymbolType.fromAssetNum assetNum).validate = .ok () := by
    rcases hsel with ⟨-, rfl⟩ | ⟨-, rfl⟩ | ⟨-, rfl⟩ <;> decide
  have hend : ((AssetSymbolType.fromAssetNum assetNum).validate >>= fun _ =>
      pure (AssetSymbolType.fromAssetNum assetNum, rest)) =
      (.ok (AssetSymbolType.fromAssetNum assetNum, rest) : Except String _) := by
    rw [hv]
    rfl
  unfold unpack
  rw [leBytes_add 4 4, List.append_assoc, readBytes_append _ (leBytes_length 4 _),
    EState.except_ok_bind]
  dsimp only
  rw [readLE_leBytes, show ser % 256 ^ 4 = ser % 2 ^ 32 by norm_num]
  rcases hsel with ⟨rfl, rfl⟩ | ⟨rfl, rfl⟩ | ⟨rfl, rfl⟩
  · rw [if_pos rfl, unpackLegacy_leBytes _ rest hser, EState.except_ok_bind]
    exact hend
  · rw [if_neg (by cases net <;> decide), if_pos rfl, unpackLegacy_leBytes _ rest hser,
      EState.except_ok_bind]
    exact hend
  · rw [if_neg (by cases net <;> decide), if_neg (by cases net <;> decide), if_pos rfl,
      unpackLegacy_leBytes _ rest hser, EState.except_ok_bind]
    exact hend

/-- Every valid symbol packs, in both modes and both builds, to bytes that unpack to it, and
its four-byte form never starts a legacy symbol. -/
theorem pack_unpack_round_trip (net : Network) (mode : PackType) (sym : AssetSymbolType)
    (rest : List UInt8) (hv : sym.validate = .ok ()) :
    ∃ bytes, pack net mode sym = .ok bytes ∧
      bytes.length = (if mode = .legacy ∧ sym.space = .legacySpace then 8 else 4) ∧
      unpack net (bytes ++ rest) = .ok (sym, rest) ∧
      (bytes.length = 4 → readLE bytes ≠ obsoleteSymbolSer net % 2 ^ 32 ∧
        readLE bytes ≠ obdSymbolSer net % 2 ^ 32 ∧ readLE bytes ≠ vestsSymbolSer % 2 ^ 32) := by
  by_cases hlm : mode = .legacy ∧ sym.space = .legacySpace
  · -- a legacy symbol in the legacy mode: eight bytes, one case per symbol
    obtain ⟨rfl, hs⟩ := hlm
    have hl : AssetSymbolType.isLegacyNum sym.assetNum := by
      unfold AssetSymbolType.space at hs
      split at hs
      · assumption
      · cases hs
    rcases hl with h | h | h
    · obtain rfl : sym = AssetSymbolType.fromAssetNum hiveAssetNumHive :=
        AssetSymbolType.ext (by rw [h]; rfl)
      exact ⟨leBytes 8 (obsoleteSymbolSer net), by cases net <;> decide, by rw [leBytes_length]; decide,
        unpack_leBytes_eight net rest (Or.inl ⟨rfl, rfl⟩), by simp⟩
    · obtain rfl : sym = AssetSymbolType.fromAssetNum hiveAssetNumHbd :=
        AssetSymbolType.ext (by rw [h]; rfl)
      exact ⟨leBytes 8 (obdSymbolSer net), by cases net <;> decide, by rw [leBytes_length]; decide,
        unpack_leBytes_eight net rest (Or.inr (Or.inl ⟨rfl, rfl⟩)), by simp⟩
    · obtain rfl : sym = AssetSymbolType.fromAssetNum hiveAssetNumVests :=
        AssetSymbolType.ext (by rw [h]; rfl)
      exact ⟨leBytes 8 vestsSymbolSer, by cases net <;> decide, by rw [leBytes_length]; decide,
        unpack_leBytes_eight net rest (Or.inr (Or.inr ⟨rfl, rfl⟩)), by simp⟩
  · -- every other case: the four bytes of the asset number
    refine ⟨leBytes 4 sym.assetNum, AssetSymbolType.pack_four net hlm, by rw [if_neg hlm]; simp,
      AssetSymbolType.unpack_leBytes_four net hv rest, fun _ => ?_⟩
    rw [readLE_leBytes, Nat.mod_eq_of_lt (lt_of_lt_of_eq sym.assetNum_lt (by norm_num))]
    exact AssetSymbolType.ne_legacy_prefix_of_valid net hv

theorem pack_unpack_round_trip_hive :
    (AssetSymbolType.fromAssetNum hiveAssetNumHive).validate = .ok () ∧
      ∃ bytes, pack .testnet .legacy (AssetSymbolType.fromAssetNum hiveAssetNumHive) = .ok bytes ∧
        bytes.length = 8 ∧
        unpack .testnet (bytes ++ [7]) = .ok (AssetSymbolType.fromAssetNum hiveAssetNumHive, [7]) := by
  obtain ⟨bytes, hpack, hlen, hunpack, -⟩ :=
    pack_unpack_round_trip .testnet .legacy (AssetSymbolType.fromAssetNum hiveAssetNumHive) [7]
      (by decide)
  exact ⟨by decide, bytes, hpack, by rw [hlen]; decide, hunpack⟩

end Protocol
end HiveChain
