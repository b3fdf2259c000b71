import TimingDiagram.Proofs.Number.Whole

namespace TimingDiagram

open Float.Model (UnpackedFloat Format)
open Float.Model.UnpackedFloat

section Finite

variable {x : Float}

theorem wholePart_eq (x : Float) :
    (wholePart x : ℚ) = (if (Binary.ofFloat x).negative then -1 else 1) *
      ((Binary.ofFloat x).wholePart : ℚ) := by
  unfold wholePart
  dsimp only
  split <;> push_cast <;> ring

theorem truncate_eq (x : Float) :
    truncate x =
      if x.toBits.toNat / 2 ^ 52 % 2 ^ 11 < 1023 then
        Float.ofBits (.ofNat (x.toBits.toNat / 2 ^ 63 * 2 ^ 63))
      else if 1075 ≤ x.toBits.toNat / 2 ^ 52 % 2 ^ 11 then x
      else Float.ofBits (.ofNat (x.toBits.toNat / 2 ^ (1075 - x.toBits.toNat / 2 ^ 52 % 2 ^ 11) *
        2 ^ (1075 - x.toBits.toNat / 2 ^ 52 % 2 ^ 11))) :=
  rfl

theorem value_large (n : Nat) (hn : 1075 ≤ n / 2 ^ 52 % 2 ^ 11) :
    (Binary.ofWord n).value =
      (if (Binary.ofWord n).negative then -1 else 1) * ((Binary.ofWord n).wholePart : ℚ) := by
  have hexp : (Binary.ofWord n).exponent = ((n / 2 ^ 52 % 2 ^ 11 - 1075 : ℕ) : Int) := by
    rw [Binary.exponent_ofWord]
    omega
  rw [Binary.wholePart_of_nonneg _ _ hexp, Binary.value, hexp, zpow_natCast, mul_assoc]
  push_cast
  rfl

theorem wholePart_small (n : Nat) (hn : n / 2 ^ 52 % 2 ^ 11 < 1023) :
    (Binary.ofWord n).wholePart = 0 := by
  have hsig := Binary.significand_ofWord_lt n
  have hexp : (Binary.ofWord n).exponent =
      -((1075 - max (n / 2 ^ 52 % 2 ^ 11) 1 : ℕ) : Int) := by
    rw [Binary.exponent_ofWord]
    omega
  rw [Binary.wholePart_of_neg _ _ (by omega) hexp]
  apply Nat.div_eq_of_lt
  exact hsig.trans_le (Nat.pow_le_pow_right (by norm_num) (by omega))

theorem value_cleared_all (n : Nat) : (Binary.ofWord (n / 2 ^ 63 * 2 ^ 63)).value = 0 := by
  have hsig : (Binary.ofWord (n / 2 ^ 63 * 2 ^ 63)).significand = 0 := by
    rw [Binary.significand_ofWord, if_pos (by omega)]
    omega
  rw [Binary.value, hsig]
  simp

-- Truncation keeps exactly the integer part.
theorem exactValue_truncate (hx : x.isFinite = true) :
    (truncate x).isFinite = true ∧ exactValue (truncate x) = wholePart x := by
  have hs := stored_ne_of_isFinite hx
  have hlt : x.toBits.toNat < 2 ^ 64 := x.toBits.toNat_lt
  have hword : Binary.ofFloat x = Binary.ofWord x.toBits.toNat := rfl
  rw [wholePart_eq, hword, truncate_eq]
  split
  · rename_i hsmall
    have hb := exactValue_ofBits (x.toBits.toNat / 2 ^ 63 * 2 ^ 63) (by omega) (by omega)
    rw [hb.2, value_cleared_all, wholePart_small _ hsmall]
    exact ⟨hb.1, by simp⟩
  · split
    · rename_i hlarge
      refine ⟨hx, ?_⟩
      rw [exactValue, hword, value_large _ hlarge]
    · have hc := value_cleared x.toBits.toNat (1075 - x.toBits.toNat / 2 ^ 52 % 2 ^ 11)
        (by omega) (by omega) (by omega)
      have hle := Nat.div_mul_le_self x.toBits.toNat
        (2 ^ (1075 - x.toBits.toNat / 2 ^ 52 % 2 ^ 11))
      have hb := exactValue_ofBits _ (hle.trans_lt hlt) hc.1
      exact ⟨hb.1, hb.2.trans hc.2⟩

-- The magnitude without its sign, and the whole number in it.
theorem exactValue_eq (x : Float) :
    exactValue x = (if (Binary.ofFloat x).negative then -1 else 1) *
      ((Binary.ofFloat x).significand * 2 ^ (Binary.ofFloat x).exponent) :=
  mul_assoc _ _ _

theorem magnitude_nonneg (b : Binary) : (0 : ℚ) ≤ b.significand * 2 ^ b.exponent := by
  positivity

theorem wholePart_of_pos (hx : 0 < exactValue x) : wholePart x = ⌊exactValue x⌋ := by
  have hm := magnitude_nonneg (Binary.ofFloat x)
  have hpos : (Binary.ofFloat x).negative = false := by
    by_contra hn
    rw [exactValue_eq, if_pos (by simpa using hn)] at hx
    linarith
  have hwhole : wholePart x = ((Binary.ofFloat x).wholePart : ℤ) := by
    unfold wholePart
    simp [hpos]
  have hvalue := exactValue_eq x
  rw [hpos, if_neg (by decide), one_mul] at hvalue
  rw [hwhole, Binary.wholePart_eq_floor, hvalue]

theorem wholePart_of_nonpos (hx : exactValue x ≤ 0) : wholePart x = ⌈exactValue x⌉ := by
  have hm := magnitude_nonneg (Binary.ofFloat x)
  have hvalue := exactValue_eq x
  unfold wholePart
  dsimp only
  by_cases hneg : (Binary.ofFloat x).negative = true
  · rw [if_pos hneg, neg_one_mul] at hvalue
    rw [if_pos hneg, hvalue, Int.ceil_neg, Binary.wholePart_eq_floor]
  · rw [if_neg hneg, one_mul] at hvalue
    rw [hvalue] at hx
    rw [if_neg hneg, Binary.wholePart_eq_floor, hvalue, le_antisymm hx hm]
    rfl

theorem truncate_of_large (hx : 1075 ≤ x.toBits.toNat / 2 ^ 52 % 2 ^ 11) : truncate x = x := by
  rw [truncate_eq, if_neg (by omega), if_pos hx]

-- A double that is no whole number lies below the numbers without room for a fraction.
theorem exactValue_lt_of_fraction (hx : truncate x < x) (hfin : x.isFinite = true) :
    exactValue x < 2 ^ 52 := by
  have hstored : x.toBits.toNat / 2 ^ 52 % 2 ^ 11 < 1075 := by
    by_contra hn
    rw [truncate_of_large (by omega), lt_iff_exactValue_lt hfin hfin] at hx
    exact lt_irrefl _ hx
  have hm := magnitude_nonneg (Binary.ofFloat x)
  have hsig : (Binary.ofFloat x).significand < 2 ^ 53 :=
    Binary.significand_ofWord_lt x.toBits.toNat
  have hexp : (Binary.ofFloat x).exponent ≤ -1 := by
    change (Binary.ofWord x.toBits.toNat).exponent ≤ -1
    rw [Binary.exponent_ofWord]
    omega
  have hpow : (2 : ℚ) ^ (Binary.ofFloat x).exponent ≤ 2 ^ (-1 : ℤ) :=
    zpow_le_zpow_right₀ (by norm_num) hexp
  have hsigq : ((Binary.ofFloat x).significand : ℚ) < 2 ^ 53 := by exact_mod_cast hsig
  have hlt : ((Binary.ofFloat x).significand : ℚ) * 2 ^ (Binary.ofFloat x).exponent < 2 ^ 52 := by
    calc
      ((Binary.ofFloat x).significand : ℚ) * 2 ^ (Binary.ofFloat x).exponent
          < 2 ^ 53 * 2 ^ (Binary.ofFloat x).exponent :=
        mul_lt_mul_of_pos_right hsigq (by positivity)
      _ ≤ 2 ^ 53 * 2 ^ (-1 : ℤ) := by gcongr
      _ = 2 ^ 52 := by norm_num
  rw [exactValue_eq]
  split <;> linarith

-- Rounding up is exact.
theorem exactValue_ceiling (hx : x.isFinite = true) :
    (ceiling x).isFinite = true ∧ exactValue (ceiling x) = ⌈exactValue x⌉ := by
  obtain ⟨htfin, htval⟩ := exactValue_truncate hx
  have hlt : truncate x < x ↔ exactValue (truncate x) < exactValue x :=
    lt_iff_exactValue_lt htfin hx
  unfold ceiling
  dsimp only
  rcases lt_or_ge 0 (exactValue x) with hpos | hneg
  · rw [wholePart_of_pos hpos] at htval
    by_cases hfraction : truncate x < x
    · have hsmall := exactValue_lt_of_fraction hfraction hx
      have hfloor := Int.floor_nonneg.mpr hpos.le
      obtain ⟨t, ht⟩ := Int.eq_ofNat_of_zero_le hfloor
      have htsmall : t < 2 ^ 52 := by
        have hle := (Int.floor_le (exactValue x)).trans_lt hsmall
        rw [ht] at hle
        exact_mod_cast hle
      have htq : exactValue (truncate x) = t := by
        rw [htval, ht]
        rfl
      obtain ⟨hfin, hval⟩ := exactValue_add_one htfin t htsmall htq
      have hceil : ⌈exactValue x⌉ = t + 1 := by
        rw [hlt, htq] at hfraction
        have hnext := Int.lt_floor_add_one (exactValue x)
        rw [ht] at hnext
        rw [Int.ceil_eq_iff]
        push_cast at hnext ⊢
        constructor <;> linarith
      rw [if_pos hfraction, hceil, hval]
      exact ⟨hfin, by push_cast; rfl⟩
    · have hceil : exactValue x = ⌊exactValue x⌋ := by
        rw [hlt, htval] at hfraction
        exact le_antisymm (not_lt.mp hfraction) (Int.floor_le _)
      rw [if_neg hfraction, htval]
      refine ⟨htfin, ?_⟩
      conv_rhs => rw [hceil]
      rw [Int.ceil_intCast]
  · rw [wholePart_of_nonpos hneg] at htval
    have hnot : ¬ truncate x < x := by
      rw [hlt, htval]
      exact not_lt.mpr (Int.le_ceil _)
    rw [if_neg hnot]
    exact ⟨htfin, htval⟩

theorem countUpTo_finite (cap : Nat) (hx : x.isFinite = true) :
    countUpTo cap x = min cap ⌊exactValue x⌋.toNat := by
  obtain ⟨hnan, hinf⟩ := not_isNaN_and_not_isInf hx
  have hone : x < 1.0 ↔ exactValue x < 1 := by
    rw [lt_iff_exactValue_lt hx rfl, exactValue_one]
  unfold countUpTo
  rw [hnan, Bool.false_or]
  by_cases hsmall : x < 1.0
  · have hfloor : ⌊exactValue x⌋ < 1 := Int.floor_lt.mpr (by exact_mod_cast hone.mp hsmall)
    have hzero : ⌊exactValue x⌋.toNat = 0 := by omega
    rw [if_pos (decide_eq_true hsmall), hzero, Nat.min_zero]
  · have hpos : 0 < exactValue x := by
      rw [hone, not_lt] at hsmall
      linarith
    rw [if_neg (mt of_decide_eq_true hsmall), if_neg (Bool.eq_false_iff.mp hinf),
      wholePart_of_pos hpos]

end Finite

theorem truncate_of_not_finite {x : Float} (hx : x.isFinite = false) : truncate x = x := by
  have hstored : x.toBits.toNat / 2 ^ 52 % 2 ^ 11 = 2047 := by
    by_contra hn
    rw [isFinite_of_stored hn] at hx
    exact Bool.false_ne_true hx.symm
  exact truncate_of_large (by omega)

theorem ceiling_of_not_finite {x : Float} (hx : x.isFinite = false) : ceiling x = x := by
  have hself : ¬ x < x := by
    rw [lt_iff_compare]
    change x.toModel.unpack.isFinite = false at hx
    cases hu : x.toModel.unpack with
    | infinity s =>
        cases s <;> decide
    | notANumber => decide
    | zero | finite =>
        rw [hu] at hx
        cases hx
  unfold ceiling
  dsimp only
  rw [truncate_of_not_finite hx, if_neg hself]

theorem countUpTo_infinity (cap : Nat) {x : Float} (hx : x.isInf = true) :
    countUpTo cap x = if 0.0 < x then cap else 0 := by
  obtain ⟨s, hu⟩ := unpack_of_isInf hx
  have hnan : x.isNaN = false := by
    change x.toModel.unpack.isNaN = false
    rw [hu]
    rfl
  unfold countUpTo
  rw [hnan, Bool.false_or]
  cases s with
  | negative =>
      have hone : x < 1.0 := by
        rw [lt_iff_compare, hu, unpack_one]
        rfl
      have hzero : ¬ 0.0 < x := by
        rw [lt_iff_compare, hu, unpack_zero]
        decide
      rw [if_pos (decide_eq_true hone), if_neg hzero]
  | positive =>
      have hone : ¬ x < 1.0 := by
        rw [lt_iff_compare, hu, unpack_one]
        decide
      have hzero : 0.0 < x := by
        rw [lt_iff_compare, hu, unpack_zero]
        rfl
      rw [if_neg (mt of_decide_eq_true hone), if_pos hx, if_pos hzero]

theorem countUpTo_nan (cap : Nat) {x : Float} (hx : x.isNaN = true) : countUpTo cap x = 0 := by
  unfold countUpTo
  rw [hx, Bool.true_or, if_pos rfl]

end TimingDiagram
