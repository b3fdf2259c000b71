import TimingDiagram.Proofs.Number.Counts

namespace TimingDiagram

open Float.Model (UnpackedFloat Format)
open Float.Model.UnpackedFloat

-- The part of a number in front of the point.
def integerPart (q : ℚ) : ℤ := if 0 < q then ⌊q⌋ else ⌈q⌉

-- The whole number that a double counts as: its integer part, brought into the range of 64-bit
-- words. An infinity is beyond one end of the range, NaN counts as 0.
def wordValue (x : Float) : ℤ :=
  if x.isNaN then 0
  else if x.isInf then (if 0.0 < x then 2 ^ 63 - 1 else -2 ^ 63)
  else max (-2 ^ 63) (min (2 ^ 63 - 1) (integerPart (exactValue x)))

theorem wholePart_eq_integerPart (x : Float) : wholePart x = integerPart (exactValue x) := by
  unfold integerPart
  split
  · rename_i h
    exact wholePart_of_pos h
  · rename_i h
    exact wholePart_of_nonpos (not_lt.mp h)

theorem integerPart_intCast (n : ℤ) : integerPart n = n := by
  unfold integerPart
  split
  · exact Int.floor_intCast n
  · exact Int.ceil_intCast n

theorem unpack_wordEnd : (9223372036854775808.0 : Float).toModel.unpack =
    .finite .positive (2 ^ 52) 11 (by positivity) := rfl

theorem unpack_neg_wordEnd : (-9223372036854775808.0 : Float).toModel.unpack =
    .finite .negative (2 ^ 52) 11 (by positivity) := rfl

theorem exactValue_wordEnd : exactValue 9223372036854775808.0 = 2 ^ 63 := by
  rw [exactValue_of_unpack unpack_wordEnd, if_neg (by decide)]
  norm_num

theorem exactValue_neg_wordEnd : exactValue (-9223372036854775808.0) = -2 ^ 63 := by
  rw [exactValue_of_unpack unpack_neg_wordEnd, if_pos (by decide)]
  norm_num

theorem toInt_saturate_finite {x : Float} (hx : x.isFinite = true) :
    (saturate x).toInt = max (-2 ^ 63) (min (2 ^ 63 - 1) (integerPart (exactValue x))) := by
  obtain ⟨hnan, -⟩ := not_isNaN_and_not_isInf hx
  have hhigh : 9223372036854775808.0 ≤ x ↔ 2 ^ 63 ≤ exactValue x := by
    rw [le_iff_exactValue_le rfl hx, exactValue_wordEnd]
  have hlow : x < -9223372036854775808.0 ↔ exactValue x < -2 ^ 63 := by
    rw [lt_iff_exactValue_lt hx rfl, exactValue_neg_wordEnd]
  rw [saturate, if_neg (Bool.eq_false_iff.mp hnan)]
  split_ifs with h h'
  · have hfloor : 2 ^ 63 ≤ ⌊exactValue x⌋ := Int.le_floor.mpr (by exact_mod_cast hhigh.mp h)
    have hpos : 0 < exactValue x := lt_of_lt_of_le (by norm_num) (hhigh.mp h)
    rw [integerPart, if_pos hpos, min_eq_left (by omega)]
    rfl
  · have hceil : ⌈exactValue x⌉ ≤ -2 ^ 63 :=
      Int.ceil_le.mpr (by exact_mod_cast (hlow.mp h').le)
    have hneg : ¬ 0 < exactValue x := by
      have := hlow.mp h'
      linarith
    rw [integerPart, if_neg hneg, min_eq_right (by omega), max_eq_left hceil]
    rfl
  · rw [hhigh, not_le] at h
    rw [hlow, not_lt] at h'
    have hrange : -2 ^ 63 ≤ integerPart (exactValue x) ∧ integerPart (exactValue x) < 2 ^ 63 := by
      unfold integerPart
      split_ifs with hpos
      · exact ⟨Int.le_floor.mpr (by exact_mod_cast h'), Int.floor_lt.mpr (by exact_mod_cast h)⟩
      · have hle : ⌈exactValue x⌉ ≤ 0 := Int.ceil_le.mpr (by exact_mod_cast not_lt.mp hpos)
        exact ⟨Int.le_ceil_iff.mpr (by push_cast; linarith), by omega⟩
    rw [wholePart_eq_integerPart, Int64.toInt_ofInt_of_le hrange.1 hrange.2]
    omega

-- Truncation and conversion together give the integer part, or the end of the range beyond which
-- it lies.
theorem toInt_saturate_truncate (x : Float) : (saturate (truncate x)).toInt = wordValue x := by
  unfold wordValue
  by_cases hfinite : x.isFinite = true
  · obtain ⟨hnan, hinf⟩ := not_isNaN_and_not_isInf hfinite
    obtain ⟨htfinite, htvalue⟩ := exactValue_truncate hfinite
    rw [toInt_saturate_finite htfinite, htvalue, wholePart_eq_integerPart, integerPart_intCast,
      if_neg (Bool.eq_false_iff.mp hnan), if_neg (Bool.eq_false_iff.mp hinf)]
  · rw [truncate_of_not_finite ((Bool.not_eq_true _).mp hfinite), saturate]
    by_cases hnan : x.isNaN = true
    · rw [if_pos hnan, if_pos hnan]
      rfl
    · have hinf : x.isInf = true := by
        by_contra hinf
        exact hfinite (isFinite_of_not hnan hinf)
      obtain ⟨s, hu⟩ := unpack_of_isInf hinf
      rw [if_neg hnan, if_neg hnan, if_pos hinf]
      cases s with
      | positive =>
          have hhigh : 9223372036854775808.0 ≤ x := by
            rw [le_iff_compare, hu, unpack_wordEnd]
            rfl
          have hpos : 0.0 < x := by
            rw [lt_iff_compare, hu, unpack_zero]
            rfl
          rw [if_pos hhigh, if_pos hpos]
          rfl
      | negative =>
          have hhigh : ¬ 9223372036854775808.0 ≤ x := by
            rw [le_iff_compare, hu, unpack_wordEnd]
            decide
          have hlow : x < -9223372036854775808.0 := by
            rw [lt_iff_compare, hu, unpack_neg_wordEnd]
            rfl
          have hpos : ¬ 0.0 < x := by
            rw [lt_iff_compare, hu, unpack_zero]
            decide
          rw [if_neg hhigh, if_pos hlow, if_neg hpos]
          rfl

end TimingDiagram
