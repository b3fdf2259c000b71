import TimingDiagram.Proofs.Number.Counts
import TimingDiagram.Wave.Bricks

namespace TimingDiagram

open Float.Model (UnpackedFloat Format)
open Float.Model.UnpackedFloat

namespace Stretch

-- The whole cells in a stretch, none in one that is not a number or lies below one.
def cells (x : Float) : Nat :=
  if x.isNaN then 0
  else if x.isInf then if 0.0 < x then limit else 0
  else min limit ⌊exactValue x⌋.toNat

theorem countUpTo_limit (x : Float) : countUpTo limit x = cells x := by
  unfold cells
  by_cases hnan : x.isNaN = true
  · rw [if_pos hnan, countUpTo_nan _ hnan]
  · rw [if_neg hnan]
    by_cases hinf : x.isInf = true
    · rw [if_pos hinf, countUpTo_infinity _ hinf]
    · rw [if_neg hinf, countUpTo_finite _ (isFinite_of_not hnan hinf)]

theorem of_eq (x : Float) : of x = if x == -0.5 then .half else .extra (cells x) := by
  rw [← countUpTo_limit]
  rfl

theorem cells_le_limit (x : Float) : cells x ≤ limit := by
  unfold cells
  split
  · exact Nat.zero_le _
  · split
    · split
      · exact le_rfl
      · exact Nat.zero_le _
    · exact Nat.min_le_left _ _

end Stretch

namespace Wave

-- The half cycles that a phase takes off the front of a lane: its double, rounded up, and every
-- one of them when the double is infinite. None for a phase that is not a number.
def halfCyclesOff (phase : Float) : ℕ∞ :=
  if phase.isNaN then 0
  else if (2.0 * phase).isInf then if 0.0 < phase then ⊤ else 0
  else (⌈2 * exactValue phase⌉.toNat : ℕ∞)

theorem countUpTo_halfCycles (cap : Nat) (phase : Float) :
    (countUpTo cap (ceiling (2.0 * phase)) : ℕ∞) = min (halfCyclesOff phase) cap := by
  unfold halfCyclesOff
  rcases double_cases phase with ⟨hx, hnan⟩ | ⟨hx, hinf, hpos⟩ | ⟨hx, hfin, hvalue⟩
  · have hkeep := ceiling_of_not_finite (x := 2.0 * phase) (by rw [isFinite_eq, hnan]; rfl)
    rw [if_pos hx, hkeep, countUpTo_nan _ hnan]
    rfl
  · have hkeep := ceiling_of_not_finite (x := 2.0 * phase) (by
      rw [isFinite_eq, hinf, Bool.not_true, Bool.and_false])
    rw [if_neg (Bool.eq_false_iff.mp hx), if_pos hinf, hkeep, countUpTo_infinity _ hinf]
    by_cases h : 0.0 < phase
    · rw [if_pos h, if_pos (hpos.mpr h), top_inf_eq]
    · rw [if_neg h, if_neg (mt hpos.mp h)]
      rfl
  · obtain ⟨-, hinf⟩ := not_isNaN_and_not_isInf hfin
    obtain ⟨hcfin, hceil⟩ := exactValue_ceiling hfin
    rw [if_neg (Bool.eq_false_iff.mp hx), if_neg (Bool.eq_false_iff.mp hinf),
      countUpTo_finite _ hcfin, hceil, Int.floor_intCast, hvalue, min_comm]
    exact Nat.mono_cast.map_min

theorem halfCyclesOff_of_nonpos {phase : Float} (h : phase ≤ 0.0) : halfCyclesOff phase = 0 := by
  unfold halfCyclesOff
  split
  · rfl
  · rename_i hnan
    split
    · rename_i hinf
      rw [if_neg]
      intro hpos
      rw [lt_iff_compare, unpack_zero] at hpos
      rw [le_iff_compare, unpack_zero] at h
      cases hu : phase.toModel.unpack with
      | notANumber =>
          rw [hu] at h
          cases h
      | zero s =>
          rw [hu] at hpos
          cases hpos
      | infinity s | finite s =>
          rw [hu] at h hpos
          cases s with
          | negative => cases hpos
          | positive => cases h
    · rename_i hinf
      have hfin : phase.isFinite = true := by
        refine isFinite_of_not hnan (mt ?_ hinf)
        intro hi
        obtain ⟨s, hu⟩ := unpack_of_isInf hi
        change (2.0 * phase).toModel.unpack.isInf = true
        rw [unpack_double_infinity hu]
        rfl
      rw [le_iff_exactValue_le hfin rfl, exactValue_zero] at h
      have hceil : ⌈2 * exactValue phase⌉ ≤ 0 := Int.ceil_le.mpr (by push_cast; linarith)
      rw [Int.toNat_of_nonpos hceil]
      rfl

section Shifted

variable {phase : Float}

theorem shifted_eq_drop (phase : Float) (bs : List Brick) :
    shifted phase bs = bs.drop (min (halfCyclesOff phase) bs.length).toNat := by
  rw [← countUpTo_halfCycles, ENat.toNat_natCast]
  rfl

theorem shifted_of_top (h : halfCyclesOff phase = ⊤) (bs : List Brick) :
    shifted phase bs = [] := by
  rw [shifted_eq_drop, h, top_inf_eq, ENat.toNat_natCast, List.drop_length]

theorem shifted_of_natCast {n : Nat} (h : halfCyclesOff phase = n) (bs : List Brick) :
    shifted phase bs = bs.drop n := by
  rw [shifted_eq_drop, h]
  rcases Nat.le_total n bs.length with hle | hle
  · rw [min_eq_left (Nat.cast_le.mpr hle), ENat.toNat_natCast]
  · rw [min_eq_right (Nat.cast_le.mpr hle), ENat.toNat_natCast, List.drop_length,
      List.drop_eq_nil_of_le hle]

theorem shifted_of_nonpos (h : phase ≤ 0.0) (bs : List Brick) : shifted phase bs = bs := by
  rw [shifted_of_natCast (n := 0) (halfCyclesOff_of_nonpos h), List.drop_zero]

theorem length_shifted (phase : Float) (bs : List Brick) :
    ((shifted phase bs).length : ℕ∞) = bs.length - halfCyclesOff phase := by
  cases hk : halfCyclesOff phase with
  | top => rw [shifted_of_top hk, List.length_nil, ENat.sub_top, Nat.cast_zero]
  | coe n => rw [shifted_of_natCast hk, List.length_drop, ENat.natCast_sub]

theorem prefix_shifted (phase : Float) {xs ys : List Brick} (h : xs <+: ys) :
    shifted phase xs <+: shifted phase ys := by
  cases hk : halfCyclesOff phase with
  | top =>
      rw [shifted_of_top hk]
      exact List.nil_prefix
  | coe n =>
      rw [shifted_of_natCast hk, shifted_of_natCast hk]
      exact h.drop n

end Shifted

end Wave

end TimingDiagram
