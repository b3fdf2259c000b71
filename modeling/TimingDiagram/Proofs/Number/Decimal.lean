import TimingDiagram.Number.Read
import TimingDiagram.Proofs.Number.Nearest

namespace TimingDiagram

open Float.Model (UnpackedFloat Format totalExponent)
open Float.Model.UnpackedFloat

section Quotients

variable {m n : ℕ} {e f : ℤ}

theorem rounds_mul (hm : 0 < m) (hn : 0 < n) (h : 2 ^ 52 ≤ m * n ∨ e + f ≤ -1074) :
    Rounds (m * 2 ^ e * (n * 2 ^ f)) (UnpackedFloat.mul Format.binary64
      (.finite .positive m e hm) (.finite .positive n f hn)) := by
  refine rounds_roundWithAccuracy (a := .exact) ?_ h
  change (m : ℚ) * 2 ^ e * (n * 2 ^ f) / 2 ^ (e + f) = (m * n : ℕ)
  rw [zpow_add₀ (by norm_num), div_eq_iff (by positivity)]
  push_cast
  ring

-- The remainder of a division tells on which side of the middle the quotient lies.
theorem marks_quotient (hn : 0 < n) :
    Marks (.ofMantissaAndAccuracy (m / n) (accuracyOfFraction (m % n) n)) (m / n) := by
  have hnq : (0 : ℚ) < n := by exact_mod_cast hn
  have hsplit : ((m % n : ℕ) : ℚ) + n * (m / n : ℕ) = m := by exact_mod_cast Nat.mod_add_div m n
  have hquotient : (m : ℚ) / n = (m / n : ℕ) + (m % n : ℕ) / n := by
    rw [← hsplit, add_div, mul_div_cancel_left₀ _ hnq.ne', add_comm]
  rw [hquotient]
  unfold accuracyOfFraction
  split
  · rename_i hzero
    rw [hzero, Nat.cast_zero, zero_div, add_zero]
    rfl
  · rename_i hpos
    have hposq : (0 : ℚ) < (m % n : ℕ) / n :=
      div_pos (by exact_mod_cast Nat.pos_of_ne_zero hpos) hnq
    have hone : ((m % n : ℕ) : ℚ) / n < 1 := by
      rw [div_lt_one hnq]
      exact_mod_cast Nat.mod_lt m hn
    rcases lt_trichotomy (2 * (m % n)) n with h | h | h
    · have hq : (2 : ℚ) * (m % n : ℕ) < n := by exact_mod_cast h
      have hhalf : ((m % n : ℕ) : ℚ) / n < 1 / 2 := by
        rw [div_lt_iff₀ hnq]
        linarith
      rw [compare_lt_iff_lt.mpr h]
      exact ⟨by linarith, by linarith⟩
    · have hq : (2 : ℚ) * (m % n : ℕ) = n := by exact_mod_cast h
      have hhalf : ((m % n : ℕ) : ℚ) / n = 1 / 2 := by
        rw [div_eq_iff hnq.ne']
        linarith
      rw [compare_eq_iff_eq.mpr h, hhalf]
      rfl
    · have hq : (n : ℚ) < 2 * (m % n : ℕ) := by exact_mod_cast h
      have hhalf : 1 / 2 < ((m % n : ℕ) : ℚ) / n := by
        rw [lt_div_iff₀ hnq]
        linarith
      rw [compare_gt_iff_gt.mpr h]
      exact ⟨by linarith, by linarith⟩

-- The dividend is widened until the quotient has enough digits.
theorem rounds_div (hm : 0 < m) (hn : 0 < n) :
    Rounds (m * 2 ^ e / (n * 2 ^ f)) (UnpackedFloat.div Format.binary64
      (.finite .positive m e hm) (.finite .positive n f hn)) := by
  obtain ⟨t, ht⟩ : ∃ t : ℤ, t = min (e - f) (max (m.log2 + e - (n.log2 + f) - 53) (-1074)) :=
    ⟨_, rfl⟩
  have htarget : min (e - f) (Format.binary64.targetExponent
      (totalExponent m e - totalExponent n f)) = t := by
    rw [ht, targetExponent_double, totalExponent, totalExponent]
    congr 2
    omega
  have hnq : (0 : ℚ) < n := by exact_mod_cast hn
  change Rounds _ (roundWithAccuracy Format.binary64 .positive _ _ _)
  simp only [htarget, Nat.shiftLeft_eq]
  refine rounds_roundWithAccuracy ?_ ?_
  · have hq : (m : ℚ) * 2 ^ e / (n * 2 ^ f) / 2 ^ t = (m * 2 ^ (e - f - t).toNat : ℕ) / n := by
      have hpow : (2 : ℚ) ^ e = 2 ^ (e - f - t).toNat * (2 ^ f * 2 ^ t) := by
        rw [← zpow_natCast, Int.toNat_of_nonneg (by omega), ← zpow_add₀ (by norm_num),
          ← zpow_add₀ (by norm_num)]
        congr 1
        omega
      rw [hpow]
      push_cast
      field_simp
    rw [hq]
    exact marks_quotient hn
  · rw [or_iff_not_imp_right]
    intro hleast
    have hwide : m.log2 + (e - f - t).toNat ≥ n.log2 + 53 := by omega
    rw [Nat.le_div_iff_mul_le hn]
    have hself := Nat.log2_self_le hm.ne'
    have hnext := (Nat.lt_log2_self (n := n)).le
    calc
      2 ^ 52 * n ≤ 2 ^ 52 * 2 ^ (n.log2 + 1) := Nat.mul_le_mul_left _ hnext
      _ = 2 ^ (n.log2 + 53) := by
        rw [← Nat.pow_add]
        congr 1
        omega
      _ ≤ 2 ^ (m.log2 + (e - f - t).toNat) := Nat.pow_le_pow_right (by norm_num) hwide
      _ = 2 ^ m.log2 * 2 ^ (e - f - t).toNat := Nat.pow_add ..
      _ ≤ m * 2 ^ (e - f - t).toNat := Nat.mul_le_mul_right _ hself

end Quotients

theorem cut_zero {q : ℚ} (hq : 0 ≤ q) (hsmall : q ≤ 2 ^ (-1075 : ℤ)) : Cut q 0 (-1074) := by
  have hp : (0 : ℚ) < 2 ^ (-1074 : ℤ) := by positivity
  have hstep : (2 : ℚ) * 2 ^ (-1075 : ℤ) = 2 ^ (-1074 : ℤ) := by
    rw [← zpow_one_add₀ (by norm_num)]
    rfl
  have hhalf : q / 2 ^ (-1074 : ℤ) ≤ 1 / 2 := by
    rw [div_le_iff₀ hp]
    linarith
  refine ⟨le_rfl, by linarith, .inr rfl, ?_⟩
  rw [Nat.cast_zero, zero_sub, abs_neg, abs_of_nonneg (by positivity)]
  exact hhalf.lt_or_eq.imp_right fun heq => ⟨heq, Even.zero⟩

theorem halfAbove_le_scientific {m : ℕ} {e : ℤ} (hm : 0 < m) (he : 2048 < e) :
    halfAbove 971 ≤ m * 10 ^ e := by
  have hmq : (1 : ℚ) ≤ m := by exact_mod_cast hm
  obtain ⟨k, rfl⟩ := Int.eq_ofNat_of_zero_le (by omega : 0 ≤ e)
  unfold halfAbove
  calc
    (2 ^ 53 - 1 / 2 : ℚ) * 2 ^ (971 : ℤ) ≤ 2 ^ 53 * 2 ^ (971 : ℤ) := by
      gcongr
      norm_num
    _ = 2 ^ (1024 : ℤ) := by
      rw [← zpow_natCast, ← zpow_add₀ (by norm_num)]
      rfl
    _ ≤ 2 ^ (k : ℤ) := zpow_le_zpow_right₀ (by norm_num) (by omega)
    _ ≤ 10 ^ (k : ℤ) := by
      rw [zpow_natCast, zpow_natCast]
      gcongr
      norm_num
    _ ≤ m * 10 ^ (k : ℤ) := le_mul_of_one_le_left (by positivity) hmq

theorem scientific_le {m : ℕ} {e : ℤ} (he : e < -(2048 + m.log2)) :
    (m : ℚ) * 10 ^ e ≤ 2 ^ (-1075 : ℤ) := by
  have hm : (m : ℚ) ≤ 2 ^ (m.log2 + 1) := by exact_mod_cast Nat.lt_log2_self.le
  obtain ⟨k, rfl⟩ : ∃ k : ℕ, e = -k := ⟨e.natAbs, by omega⟩
  have hpow : (10 : ℚ) ^ (-k : ℤ) ≤ 2 ^ (-k : ℤ) := by
    rw [zpow_neg, zpow_neg, zpow_natCast, zpow_natCast]
    gcongr
    norm_num
  calc
    (m : ℚ) * 10 ^ (-k : ℤ) ≤ 2 ^ (m.log2 + 1) * 2 ^ (-k : ℤ) := by gcongr
    _ = 2 ^ ((m.log2 + 1 : ℕ) + (-k : ℤ)) := by rw [zpow_add₀ (by norm_num), zpow_natCast]
    _ ≤ 2 ^ (-1075 : ℤ) := zpow_le_zpow_right₀ (by norm_num) (by omega)

theorem rounds_ofScientific (m : ℕ) (e : ℤ) :
    Rounds (m * 10 ^ e) (UnpackedFloat.ofScientific Format.binary64 m e) := by
  unfold UnpackedFloat.ofScientific
  split
  · rename_i hm
    subst hm
    rw [Nat.cast_zero, zero_mul]
    exact .zero (cut_zero le_rfl (by positivity))
  rename_i hm
  have hpos := Nat.pos_of_ne_zero hm
  split
  · rename_i he
    exact .infinity (halfAbove_le_scientific hpos he)
  split
  · rename_i he
    exact .zero (cut_zero (by positivity) (scientific_le he))
  split
  · rename_i he
    obtain ⟨k, rfl⟩ := Int.eq_ofNat_of_zero_le he
    have hwide : 2 ^ 53 ≤ m <<< 53 := by
      rw [Nat.shiftLeft_eq]
      exact Nat.le_mul_of_pos_left _ hpos
    have hpower : 0 < 10 ^ k := by positivity
    have hlarge : 2 ^ 52 ≤ m <<< 53 * 10 ^ k :=
      (by omega : 2 ^ 52 ≤ m <<< 53).trans (Nat.le_mul_of_pos_right _ hpower)
    have hproduct := rounds_mul (e := -53) (f := 0) (by omega) hpower (.inl hlarge)
    have hq : ((m <<< 53 : ℕ) : ℚ) * 2 ^ (-53 : ℤ) * ((10 ^ k : ℕ) * 2 ^ (0 : ℤ)) =
        m * 10 ^ (k : ℤ) := by
      have hcancel : (2 : ℚ) ^ 53 * 2 ^ (-53 : ℤ) = 1 := by norm_num
      rw [Nat.shiftLeft_eq, zpow_zero, mul_one, zpow_natCast, Nat.cast_mul, Nat.cast_pow,
        Nat.cast_pow, mul_assoc (m : ℚ), Nat.cast_ofNat, hcancel, mul_one, Nat.cast_ofNat]
    rw [hq] at hproduct
    exact hproduct
  · rename_i he
    obtain ⟨k, rfl⟩ : ∃ k : ℕ, e = -k := ⟨e.natAbs, by omega⟩
    have hquotient := rounds_div (m := m) (e := 0) (n := 10 ^ k) (f := 0) hpos (by positivity)
    have hq : (m : ℚ) * 2 ^ (0 : ℤ) / ((10 ^ k : ℕ) * 2 ^ (0 : ℤ)) = m * 10 ^ (-k : ℤ) := by
      rw [zpow_neg, zpow_natCast, zpow_zero, mul_one, mul_one, div_eq_mul_inv]
      push_cast
      rfl
    rw [hq] at hquotient
    simp only [neg_neg, Int.toNat_natCast]
    exact hquotient

theorem exists_natCast {n : ℕ} (hn : 0 < n) (hlt : n < 2 ^ 53) :
    ∃ m e, ∃ hm : Reduced m e, n.toUInt64.toFloat.toModel.unpack = .finite .positive m e hm.pos ∧
      2 ^ 52 ≤ m ∧ (m : ℚ) * 2 ^ e = n := by
  have hm := reduced_natCast hn hlt
  have hlog : n.log2 < 53 := (Nat.log2_lt hn.ne').mpr hlt
  have hword : n.toUInt64.toNat = n := Nat.mod_eq_of_lt (by omega)
  have hround := round_natCast hn hlt 0
  rw [Nat.pow_zero, Nat.mul_one, Nat.cast_zero, neg_zero] at hround
  refine ⟨_, _, hm, ?_, hm.full.resolve_right (by omega), value_natCast hn hlt⟩
  change UnpackedFloat.unpack Format.binary64 (UnpackedFloat.pack Format.binary64
    (UnpackedFloat.normalize Format.binary64 (n.toUInt64.toNat : ℕ) 0 .positive)) = _
  rw [hword, normalize_natCast n 0 .positive hn, hround, unpack_pack_finite .positive hm (by omega)]

-- The powers of ten that a double holds exactly.
def powerOfTen (k : Fin 23) : Float :=
  have : k.val < Float.exactlyRepresentablePowersOfTen.size := k.isLt
  Float.exactlyRepresentablePowersOfTen[k.val]

theorem fields_powerOfTen (k : Fin 23) :
    (powerOfTen k).isFinite = true ∧ (Binary.ofFloat (powerOfTen k)).negative = false ∧
      2 ^ 52 ≤ (Binary.ofFloat (powerOfTen k)).significand ∧
      -52 ≤ (Binary.ofFloat (powerOfTen k)).exponent ∧
      (Binary.ofFloat (powerOfTen k)).significand *
        2 ^ ((Binary.ofFloat (powerOfTen k)).exponent + 52).toNat = 10 ^ k.val * 2 ^ 52 := by
  revert k
  decide +kernel

theorem exists_powerOfTen (k : Fin 23) :
    ∃ m e, ∃ hm : Reduced m e, (powerOfTen k).toModel.unpack = .finite .positive m e hm.pos ∧
      2 ^ 52 ≤ m ∧ (m : ℚ) * 2 ^ e = 10 ^ k.val := by
  obtain ⟨hfinite, hsign, hlow, hleast, hvalue⟩ := fields_powerOfTen k
  have hreduced : Reduced (Binary.ofFloat (powerOfTen k)).significand
      (Binary.ofFloat (powerOfTen k)).exponent :=
    reduced_ofWord (powerOfTen k).toBits.toNat
      (Nat.pos_iff_ne_zero.mp (lt_of_lt_of_le (by positivity) hlow))
  refine ⟨_, _, hreduced, ?_, hlow, ?_⟩
  · rw [unpack_of_isFinite hfinite]
    refine Binary.unpacked_eq_finite _ _ _ _ _ ?_ rfl rfl
    rw [Binary.sign, hsign]
    rfl
  · generalize (Binary.ofFloat (powerOfTen k)).significand = m at hvalue
    generalize (Binary.ofFloat (powerOfTen k)).exponent = e at hleast hvalue
    have hpow : (2 : ℚ) ^ (e + 52).toNat = 2 ^ e * 2 ^ 52 := by
      rw [← zpow_natCast, Int.toNat_of_nonneg (by omega), zpow_add₀ (by norm_num)]
      rfl
    have hq : (m : ℚ) * 2 ^ (e + 52).toNat = 10 ^ k.val * 2 ^ 52 := by exact_mod_cast hvalue
    rw [hpow, ← mul_assoc] at hq
    exact mul_right_cancel₀ (by positivity) hq

theorem unpack_natCast_zero : (0 : ℕ).toUInt64.toFloat.toModel.unpack = .zero .positive := rfl

theorem rounds_zero : Rounds 0 (.zero .positive) := .zero (cut_zero le_rfl (by positivity))

theorem isNearest_mul_powerOfTen {m : ℕ} (hm : m < 2 ^ 53) (k : Fin 23) :
    IsNearest (m.toUInt64.toFloat * powerOfTen k) (m * 10 ^ (k.val : ℤ)) := by
  obtain ⟨p, f, hp, hpower, hplow, hpvalue⟩ := exists_powerOfTen k
  rcases Nat.eq_zero_or_pos m with rfl | hpos
  · rw [Nat.cast_zero, zero_mul]
    refine isNearest_of_rounds rounds_zero ?_
    change UnpackedFloat.unpack Format.binary64 (UnpackedFloat.pack Format.binary64
      (UnpackedFloat.mul Format.binary64 _ _)) = _
    rw [unpack_natCast_zero, hpower]
    rfl
  · obtain ⟨n, e, hn, hwhole, hnlow, hnvalue⟩ := exists_natCast hpos hm
    have hlarge : 2 ^ 52 ≤ n * p := hnlow.trans (Nat.le_mul_of_pos_right _ hp.pos)
    rw [zpow_natCast, ← hnvalue, ← hpvalue]
    refine isNearest_of_rounds (rounds_mul hn.pos hp.pos (.inl hlarge)) ?_
    rw [← hwhole, ← hpower]
    rfl

theorem isNearest_div_powerOfTen {m : ℕ} (hm : m < 2 ^ 53) (k : Fin 23) :
    IsNearest (m.toUInt64.toFloat / powerOfTen k) (m * 10 ^ (-k.val : ℤ)) := by
  obtain ⟨p, f, hp, hpower, -, hpvalue⟩ := exists_powerOfTen k
  rcases Nat.eq_zero_or_pos m with rfl | hpos
  · rw [Nat.cast_zero, zero_mul]
    refine isNearest_of_rounds rounds_zero ?_
    change UnpackedFloat.unpack Format.binary64 (UnpackedFloat.pack Format.binary64
      (UnpackedFloat.div Format.binary64 _ _)) = _
    rw [unpack_natCast_zero, hpower]
    rfl
  · obtain ⟨n, e, hn, hwhole, -, hnvalue⟩ := exists_natCast hpos hm
    rw [zpow_neg, zpow_natCast, ← div_eq_mul_inv, ← hnvalue, ← hpvalue]
    refine isNearest_of_rounds (rounds_div hn.pos hp.pos) ?_
    rw [← hwhole, ← hpower]
    rfl

-- Small numbers are multiplied or divided as doubles, others are rounded from their exact value.
theorem isNearest_ofScientific (m : ℕ) (negative : Bool) (e : ℕ) :
    IsNearest (Float.ofScientific m negative e)
      (m * 10 ^ (if negative then -(e : ℤ) else e)) := by
  unfold Float.ofScientific
  split
  · rename_i h
    have hk : e < 23 := by omega
    cases negative with
    | false => exact isNearest_mul_powerOfTen h.1 ⟨e, hk⟩
    | true => exact isNearest_div_powerOfTen h.1 ⟨e, hk⟩
  · have hrounds := rounds_ofScientific m (if negative then -(e : ℤ) else e)
    refine isNearest_of_rounds hrounds ?_
    cases negative with
    | false => rfl
    | true => cases e <;> rfl

theorem isNearest_nearest (digits : ℕ) (exponent : ℤ) :
    IsNearest (nearest false digits exponent) (digits * 10 ^ exponent) := by
  cases exponent with
  | ofNat e => exact isNearest_ofScientific digits false e
  | negSucc e => exact isNearest_ofScientific digits true (e + 1)

end TimingDiagram
