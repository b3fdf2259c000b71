import TimingDiagram.Proofs.Number.Cut

namespace TimingDiagram

open Float.Model (UnpackedFloat Format)
open Float.Model.UnpackedFloat

theorem two_mul_zpow_le {s t : ℤ} (h : s < t) : 2 * (2 : ℚ) ^ s ≤ 2 ^ t := by
  rw [← zpow_one_add₀ (by norm_num)]
  exact zpow_le_zpow_right₀ (by norm_num) (by omega)

section Largest

variable {q : ℚ} {r m : ℕ} {t e k : ℤ}

theorem Cut.lt_halfAbove (h : Cut q r t) (hm : m < 2 ^ 53) (he : e ≤ k) (hk : -1074 ≤ k)
    (hvalue : (m : ℚ) * 2 ^ e = r * 2 ^ t) : q < halfAbove k := by
  have hp : (0 : ℚ) < 2 ^ k := by positivity
  have hsmall : (r : ℚ) * 2 ^ t < 2 ^ 53 * 2 ^ k := by
    have hmq : (m : ℚ) < 2 ^ 53 := by exact_mod_cast hm
    calc
      (r : ℚ) * 2 ^ t = m * 2 ^ e := hvalue.symm
      _ < 2 ^ 53 * 2 ^ e := mul_lt_mul_of_pos_right hmq (by positivity)
      _ ≤ 2 ^ 53 * 2 ^ k := by
        gcongr
        norm_num
  unfold halfAbove
  rcases lt_trichotomy t k with ht | rfl | ht
  · have hpow := two_mul_zpow_le ht
    have hlt := h.lt
    linarith
  · have hrq : (r : ℚ) < 2 ^ 53 := lt_of_mul_lt_mul_right hsmall hp.le
    have hr : r + 1 ≤ 2 ^ 53 := by exact_mod_cast hrq
    rw [← div_lt_iff₀ hp]
    rcases h.nearest with hnear | ⟨htie, heven⟩
    · have hle : (r : ℚ) + 1 ≤ 2 ^ 53 := by exact_mod_cast hr
      have hd := abs_lt.mp hnear
      linarith
    · -- The largest significand is odd.
      have hodd : r + 1 ≠ 2 ^ 53 := by
        intro heq
        rw [Nat.even_iff] at heven
        omega
      have hle : (r : ℚ) + 2 ≤ 2 ^ 53 := by exact_mod_cast (by omega : r + 2 ≤ 2 ^ 53)
      have hd := abs_le.mp htie.le
      linarith
  · have hpow := two_mul_zpow_le ht
    have hr : 2 ^ 52 ≤ r := h.le_significand.resolve_right (by omega)
    have hrq : (2 : ℚ) ^ 52 ≤ r := by exact_mod_cast hr
    have hlarge : (2 : ℚ) ^ 52 * 2 ^ t ≤ r * 2 ^ t := by gcongr
    linarith

theorem Cut.halfAbove_le (h : Cut q r t) (hm : 2 ^ 52 ≤ m) (he : k < e) (hk : -1074 ≤ k)
    (hvalue : (m : ℚ) * 2 ^ e = r * 2 ^ t) : halfAbove k ≤ q := by
  have hp : (0 : ℚ) < 2 ^ k := by positivity
  have hlarge : (2 : ℚ) ^ 53 * 2 ^ k ≤ r * 2 ^ t := by
    have hmq : (2 : ℚ) ^ 52 ≤ m := by exact_mod_cast hm
    have hpow := two_mul_zpow_le he
    calc
      (2 : ℚ) ^ 53 * 2 ^ k = 2 ^ 52 * (2 * 2 ^ k) := by ring
      _ ≤ (m : ℚ) * 2 ^ e := by gcongr
      _ = r * 2 ^ t := hvalue
  have hrq : (r : ℚ) ≤ 2 ^ 53 := by exact_mod_cast h.le
  unfold halfAbove
  rcases lt_trichotomy t k with ht | rfl | ht
  · have hpow := two_mul_zpow_le ht
    have hsmall : (r : ℚ) * 2 ^ t ≤ 2 ^ 53 * 2 ^ t := by gcongr
    linarith
  · have hr : (2 : ℚ) ^ 53 ≤ r := le_of_mul_le_mul_right hlarge hp
    have hd := abs_le.mp h.distance_le
    rw [← le_div_iff₀ hp]
    linarith
  · have hpow := two_mul_zpow_le ht
    have hfull := h.full.resolve_right (by omega)
    linarith

end Largest

-- The double nearest to a number that is not negative, infinity if the largest exponent is
-- exceeded. Of two that are equally near it is the one with the even significand.
structure IsNearest (x : Float) (q : ℚ) : Prop where
  finite : q < halfAbove 971 → x.isFinite = true ∧ (Binary.ofFloat x).negative = false ∧
    ∀ y : Float, y.isFinite = true → exactValue y ≠ exactValue x →
      |exactValue x - q| < |exactValue y - q| ∨
        |exactValue x - q| = |exactValue y - q| ∧ Even (Binary.ofFloat x).significand
  infinite : halfAbove 971 ≤ q → x.isInf = true ∧ 0.0 < x

theorem isNearest_of_infinity {x : Float} {q : ℚ} (hx : x.toModel.unpack = .infinity .positive)
    (hq : halfAbove 971 ≤ q) : IsNearest x q := by
  refine ⟨fun hlt => absurd hq (not_le.mpr hlt), fun _ => ⟨?_, ?_⟩⟩
  · change x.toModel.unpack.isInf = true
    rw [hx]
    rfl
  · rw [lt_iff_compare, hx, unpack_zero]
    rfl

-- `r * 2^t` is the value of `x`, and its sign and its parity are those of `x`.
theorem isNearest_of_cut {x : Float} {q : ℚ} {r : ℕ} {t : ℤ} (hcut : Cut q r t)
    (hq : q < halfAbove 971) (hfinite : x.isFinite = true)
    (hsign : (Binary.ofFloat x).negative = false) (hvalue : exactValue x = r * 2 ^ t)
    (heven : Even r → Even (Binary.ofFloat x).significand) : IsNearest x q := by
  refine ⟨fun _ => ⟨hfinite, hsign, fun y hy hne => ?_⟩, fun hle => absurd hq (not_lt.mpr hle)⟩
  have hreal := isReal_unpack hy
  rw [← rational_unpack hy] at hne ⊢
  rw [hvalue] at hne ⊢
  exact (hcut.nearest_real hreal hne).imp_right (And.imp_right heven)

theorem negative_eq_false {b : Binary} (h : b.sign = .positive) : b.negative = false := by
  unfold Binary.sign at h
  split at h
  · cases h
  · rename_i hn
    exact (Bool.not_eq_true _).mp hn

theorem fields_of_unpack {x : Float} {m : ℕ} {e : ℤ} {hm : 0 < m}
    (hx : x.toModel.unpack = .finite .positive m e hm) :
    (Binary.ofFloat x).negative = false ∧ (Binary.ofFloat x).significand = m := by
  rw [unpack_of_isFinite (isFinite_of_unpack hx), Binary.unpacked] at hx
  split at hx
  · cases hx
  · simp only [UnpackedFloat.finite.injEq] at hx
    exact ⟨negative_eq_false hx.1, hx.2.1⟩

theorem fields_of_unpack_zero {x : Float} (hx : x.toModel.unpack = .zero .positive) :
    x.isFinite = true ∧ (Binary.ofFloat x).negative = false ∧
      (Binary.ofFloat x).significand = 0 := by
  have hfinite : x.isFinite = true := by
    change x.toModel.unpack.isFinite = true
    rw [hx]
    rfl
  rw [unpack_of_isFinite hfinite, Binary.unpacked] at hx
  split at hx
  · rename_i hzero
    exact ⟨hfinite, negative_eq_false (UnpackedFloat.zero.inj hx), hzero⟩
  · cases hx

theorem isNearest_of_rounds {x : Float} {q : ℚ} {u : UnpackedFloat} (hu : Rounds q u)
    (hx : x.toModel.unpack =
      UnpackedFloat.unpack Format.binary64 (UnpackedFloat.pack Format.binary64 u)) :
    IsNearest x q := by
  cases hu with
  | infinity hq => exact isNearest_of_infinity (hx.trans (unpack_packedInfinity .positive)) hq
  | @zero t hcut =>
      have hzero := hx.trans (unpack_pack_zero .positive)
      obtain ⟨hfinite, hsign, hsignificand⟩ := fields_of_unpack_zero hzero
      have hvalue : ((0 : ℕ) : ℚ) * 2 ^ (0 : ℤ) = (0 : ℕ) * 2 ^ t := by simp
      have hlt : q < halfAbove 971 :=
        hcut.lt_halfAbove (by norm_num) (by norm_num) (by norm_num) hvalue
      refine isNearest_of_cut hcut hlt hfinite hsign ?_ fun _ => ?_
      · rw [← rational_unpack hfinite, hzero, Nat.cast_zero, zero_mul]
        rfl
      · rw [hsignificand]
        exact Even.zero
  | @finite r m t e hcut hm hvalue heven =>
      by_cases he : e ≤ 971
      · rw [unpack_pack_finite .positive hm he] at hx
        obtain ⟨hsign, hsignificand⟩ := fields_of_unpack hx
        refine isNearest_of_cut hcut (hcut.lt_halfAbove hm.lt he (by norm_num) hvalue)
          (isFinite_of_unpack hx) hsign ?_ ?_
        · rw [exactValue_of_unpack hx, if_neg (by decide), one_mul, hvalue]
        · rwa [hsignificand]
      · have hm52 : 2 ^ 52 ≤ m := hm.full.resolve_right (by omega)
        rw [pack_overflow .positive hm.pos (by omega), unpack_packedInfinity] at hx
        exact isNearest_of_infinity hx
          (hcut.halfAbove_le hm52 (by omega) (by norm_num) hvalue)

end TimingDiagram
