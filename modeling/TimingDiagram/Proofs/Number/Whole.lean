import TimingDiagram.Proofs.Number.Arithmetic

namespace TimingDiagram

open Float.Model (UnpackedFloat Format)
open Float.Model.UnpackedFloat

namespace Binary

theorem wholePart_eq_floor (b : Binary) :
    (b.wholePart : ℤ) = ⌊(b.significand : ℚ) * 2 ^ b.exponent⌋ := by
  unfold wholePart
  cases b.exponent with
  | ofNat e =>
      have h : (b.significand : ℚ) * 2 ^ (Int.ofNat e) = ((b.significand * 2 ^ e : ℕ) : ℚ) := by
        push_cast
        rfl
      rw [h, Int.floor_natCast]
      rfl
  | negSucc e =>
      have h : (b.significand : ℚ) * 2 ^ (Int.negSucc e) =
          (b.significand : ℚ) / ((2 ^ (e + 1) : ℕ) : ℚ) := by
        rw [zpow_negSucc]
        push_cast
        rfl
      rw [h, Rat.floor_natCast_div_natCast]
      push_cast
      rfl

theorem wholePart_of_neg (b : Binary) (k : Nat) (hk : 0 < k) (he : b.exponent = -(k : Int)) :
    b.wholePart = b.significand / 2 ^ k := by
  obtain ⟨j, rfl⟩ := Nat.exists_eq_succ_of_ne_zero hk.ne'
  unfold wholePart
  rw [he]
  rfl

theorem wholePart_of_nonneg (b : Binary) (k : Nat) (he : b.exponent = (k : Int)) :
    b.wholePart = b.significand * 2 ^ k := by
  unfold wholePart
  rw [he]
  rfl

theorem isFinite_unpacked (b : Binary) : b.unpacked.isFinite = true := by
  unfold unpacked
  split <;> rfl

end Binary

theorem isFinite_of_stored {x : Float} (hx : x.toBits.toNat / 2 ^ 52 % 2 ^ 11 ≠ 2047) :
    x.isFinite = true := by
  change (UnpackedFloat.unpack Format.binary64 x.toBits.toBitVec).isFinite = true
  rw [unpack_word x.toBits.toBitVec hx]
  exact Binary.isFinite_unpacked _

-- A finite word is kept as it is.
theorem unpack_ofBits (n : Nat) (hlt : n < 2 ^ 64) (hn : n / 2 ^ 52 % 2 ^ 11 ≠ 2047) :
    (Float.ofBits (.ofNat n)).toModel.unpack = (Binary.ofWord n).unpacked := by
  have hw : (UInt64.ofNat n).toBitVec.toNat = n := by
    change n % 2 ^ 64 = n
    exact Nat.mod_eq_of_lt hlt
  have hu := unpack_word (UInt64.ofNat n).toBitVec (by rw [hw]; exact hn)
  rw [hw] at hu
  change UnpackedFloat.unpack Format.binary64 (UnpackedFloat.pack Format.binary64
    (UnpackedFloat.unpack Format.binary64 (UInt64.ofNat n).toBitVec)) = _
  rw [hu]
  unfold Binary.unpacked
  split
  · exact unpack_pack_zero _
  · rename_i hz
    refine unpack_pack_finite _ (reduced_ofWord n hz) ?_
    rw [Binary.exponent_ofWord]
    omega

theorem exactValue_ofBits (n : Nat) (hlt : n < 2 ^ 64) (hn : n / 2 ^ 52 % 2 ^ 11 ≠ 2047) :
    (Float.ofBits (.ofNat n)).isFinite = true ∧
      exactValue (Float.ofBits (.ofNat n)) = (Binary.ofWord n).value := by
  have hu := unpack_ofBits n hlt hn
  have hf : (Float.ofBits (.ofNat n)).isFinite = true := by
    change (Float.ofBits (.ofNat n)).toModel.unpack.isFinite = true
    rw [hu]
    exact Binary.isFinite_unpacked _
  refine ⟨hf, ?_⟩
  rw [← rational_unpack hf, hu, rational_unpacked]

-- Clearing binary digits at the end leaves what stands in front of them.
theorem clear_digits (a low k : Nat) (hk : k ≤ 52) :
    (2 ^ 52 * a + low) / 2 ^ k * 2 ^ k = 2 ^ 52 * a + low / 2 ^ k * 2 ^ k := by
  have hs : 2 ^ 52 * a = 2 ^ k * (2 ^ (52 - k) * a) := by
    rw [← Nat.mul_assoc, ← Nat.pow_add, Nat.add_sub_of_le hk]
  rw [hs, Nat.mul_add_div (by positivity), Nat.add_mul]
  ring

theorem value_cleared (n k : Nat) (hk : 0 < k) (hk52 : k ≤ 52)
    (hn : n / 2 ^ 52 % 2 ^ 11 = 1075 - k) :
    (n / 2 ^ k * 2 ^ k) / 2 ^ 52 % 2 ^ 11 ≠ 2047 ∧
      (Binary.ofWord (n / 2 ^ k * 2 ^ k)).value =
        (if (Binary.ofWord n).negative then -1 else 1) * ((Binary.ofWord n).wholePart : ℚ) := by
  have hlow := Nat.mod_lt n (by positivity : 2 ^ 52 > 0)
  have hle := Nat.div_mul_le_self (n % 2 ^ 52) (2 ^ k)
  have hcut : n / 2 ^ k * 2 ^ k = 2 ^ 52 * (n / 2 ^ 52) + n % 2 ^ 52 / 2 ^ k * 2 ^ k := by
    conv_lhs => rw [← Nat.div_add_mod n (2 ^ 52)]
    exact clear_digits _ _ k hk52
  have hsig : (Binary.ofWord n).significand / 2 ^ k * 2 ^ k =
      2 ^ 52 + n % 2 ^ 52 / 2 ^ k * 2 ^ k := by
    have hc := clear_digits 1 (n % 2 ^ 52) k hk52
    rw [Nat.mul_one] at hc
    rw [← hc, Binary.significand_ofWord, if_neg (by omega), Nat.add_comm]
  have hexp : (Binary.ofWord n).exponent = -(k : Int) := by
    rw [Binary.exponent_ofWord, hn]
    omega
  have hwhole := Binary.wholePart_of_neg _ k hk hexp
  generalize n / 2 ^ k * 2 ^ k = n' at hcut ⊢
  generalize n % 2 ^ 52 / 2 ^ k * 2 ^ k = low' at *
  have hstored : n' / 2 ^ 52 % 2 ^ 11 = 1075 - k := by omega
  refine ⟨by omega, ?_⟩
  have hsig' : (Binary.ofWord n').significand = (Binary.ofWord n).significand / 2 ^ k * 2 ^ k := by
    rw [hsig, Binary.significand_ofWord, if_neg (by omega)]
    omega
  have hexp' : (Binary.ofWord n').exponent = -(k : Int) := by
    rw [Binary.exponent_ofWord, hstored]
    omega
  have hneg : (Binary.ofWord n').negative = (Binary.ofWord n).negative := by
    rw [Binary.negative_ofWord, Binary.negative_ofWord]
    congr 1
    exact propext ⟨fun h => by omega, fun h => by omega⟩
  unfold Binary.value
  rw [hneg, hsig', hexp', hwhole, zpow_neg, zpow_natCast]
  push_cast
  rw [mul_assoc, mul_assoc, mul_inv_cancel₀ (by positivity), mul_one]

end TimingDiagram
