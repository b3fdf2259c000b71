import TimingDiagram.Proofs.Number.Arithmetic

namespace TimingDiagram

open Float.Model (UnpackedFloat Format totalExponent)
open Float.Model.UnpackedFloat

-- What a significand with its round bit and its sticky bit says about a number.
def Marks : ExtendedMantissa → ℚ → Prop
  | ⟨m, false, false⟩, x => x = m
  | ⟨m, false, true⟩, x => (m : ℚ) < x ∧ x < m + 1 / 2
  | ⟨m, true, false⟩, x => x = m + 1 / 2
  | ⟨m, true, true⟩, x => (m : ℚ) + 1 / 2 < x ∧ x < m + 1

namespace Marks

variable {em : ExtendedMantissa} {x : ℚ}

theorem le (h : Marks em x) : (em.mantissa : ℚ) ≤ x := by
  obtain ⟨m, _ | _, _ | _⟩ := em <;> simp only [Marks] at h ⊢ <;> linarith

theorem lt (h : Marks em x) : x < em.mantissa + 1 := by
  obtain ⟨m, _ | _, _ | _⟩ := em <;> simp only [Marks] at h ⊢ <;> linarith

-- Half a number has the dropped digit as its round bit.
theorem shiftRightOne (h : Marks em x) : Marks em.shiftRightOne (x / 2) := by
  obtain ⟨m, round, sticky⟩ := em
  obtain ⟨k, rfl | rfl⟩ := Nat.even_or_odd' m
  · have hbit : (2 * k % 2 != 0) = false := by simp
    have hk : 2 * k / 2 = k := by omega
    cases round <;> cases sticky <;>
      simp only [Marks, ExtendedMantissa.shiftRightOne, hbit, hk, Bool.or_false, Bool.or_true,
        Nat.cast_mul, Nat.cast_ofNat] at h ⊢
    · linarith
    all_goals constructor <;> linarith
  · have hbit : ((2 * k + 1) % 2 != 0) = true := by simp
    have hk : (2 * k + 1) / 2 = k := by omega
    cases round <;> cases sticky <;>
      simp only [Marks, ExtendedMantissa.shiftRightOne, hbit, hk, Bool.or_false, Bool.or_true,
        Nat.cast_add, Nat.cast_mul, Nat.cast_ofNat, Nat.cast_one] at h ⊢
    · linarith
    all_goals constructor <;> linarith

theorem shiftRight (h : Marks em x) (k : ℕ) : Marks (em >>> k) (x / 2 ^ k) := by
  change Marks (k.repeat ExtendedMantissa.shiftRightOne em) _
  induction k with
  | zero => simpa [Nat.repeat] using h
  | succ k ih =>
      rw [Nat.repeat, pow_succ, ← div_div]
      exact ih.shiftRightOne

-- Half way between two whole numbers the even one is taken, elsewhere the nearer one.
theorem roundedMantissa (h : Marks em x) :
    |(em.roundedMantissa : ℚ) - x| < 1 / 2 ∨
      |(em.roundedMantissa : ℚ) - x| = 1 / 2 ∧ Even em.roundedMantissa := by
  obtain ⟨m, round, sticky⟩ := em
  cases round <;> cases sticky <;>
    simp only [Marks, ExtendedMantissa.roundedMantissa, ExtendedMantissa.accuracy,
      Accuracy.roundToNearestEven] at h ⊢
  · left
    rw [h, sub_self, abs_zero]
    norm_num
  · left
    rw [abs_lt]
    constructor <;> linarith
  · right
    rcases Nat.mod_two_eq_zero_or_one m with hm | hm
    · rw [hm, h, Nat.add_zero, Nat.even_iff]
      refine ⟨?_, hm⟩
      rw [show (m : ℚ) - (m + 1 / 2) = -(1 / 2) by ring, abs_neg, abs_of_pos (by norm_num)]
    · rw [hm, h, Nat.even_add_one, Nat.not_even_iff]
      refine ⟨?_, hm⟩
      push_cast
      rw [show (m : ℚ) + 1 - (m + 1 / 2) = 1 / 2 by ring, abs_of_pos (by norm_num)]
  · left
    push_cast
    rw [abs_lt]
    constructor <;> linarith

end Marks

-- A number cut off behind the last place that the format has for it: `r` is the nearest whole
-- multiple of `2^t`, the even one of two.
structure Cut (q : ℚ) (r : ℕ) (t : ℤ) : Prop where
  least_le : -1074 ≤ t
  lt : q < 2 ^ 53 * 2 ^ t
  full : 2 ^ 52 * 2 ^ t ≤ q ∨ t = -1074
  nearest : |(r : ℚ) - q / 2 ^ t| < 1 / 2 ∨ |(r : ℚ) - q / 2 ^ t| = 1 / 2 ∧ Even r

-- The multiples of `2^t` and the numbers with digits behind it make up the format.
theorem multiple_or_lt {u : UnpackedFloat} (hu : IsReal u) (t : ℤ) :
    (∃ j : ℤ, rational u = j * 2 ^ t) ∨ rational u < 2 ^ 52 * 2 ^ t ∧ -1074 < t := by
  cases u with
  | infinity | notANumber => exact hu.elim
  | zero s => exact Or.inl ⟨0, by simp [rational]⟩
  | finite s m e hm =>
      have hr : Reduced m e := hu
      rcases le_or_gt t e with hte | hte
      · left
        refine ⟨(if s == .negative then -1 else 1) * (m * 2 ^ (e - t).toNat : ℕ), ?_⟩
        have hpow : (2 : ℚ) ^ e = 2 ^ (e - t).toNat * 2 ^ t := by
          rw [← zpow_natCast, Int.toNat_of_nonneg (by omega), ← zpow_add₀ (by norm_num)]
          congr 1
          omega
        rw [rational, hpow]
        split <;> push_cast <;> ring
      · right
        refine ⟨?_, by have := hr.least_le; omega⟩
        have hlt : (m : ℚ) < 2 ^ 53 := by exact_mod_cast hr.lt
        calc
          rational (.finite s m e hm) ≤ m * 2 ^ e := by
            have hp : (0 : ℚ) ≤ m * 2 ^ e := by positivity
            rw [rational]
            split <;> linarith
          _ < 2 ^ 53 * 2 ^ e := mul_lt_mul_of_pos_right hlt (by positivity)
          _ = 2 ^ 52 * 2 ^ (e + 1) := by
            rw [zpow_add₀ (by norm_num)]
            ring
          _ ≤ 2 ^ 52 * 2 ^ t := by
            gcongr
            · norm_num
            · omega

namespace Cut

variable {q : ℚ} {r : ℕ} {t : ℤ}

theorem distance_le (h : Cut q r t) : |(r : ℚ) - q / 2 ^ t| ≤ 1 / 2 :=
  h.nearest.elim le_of_lt fun htie => htie.1.le

theorem distance_eq (v : ℚ) (t : ℤ) : |v * 2 ^ t - q| = |v - q / 2 ^ t| * 2 ^ t := by
  have hp : (0 : ℚ) < 2 ^ t := by positivity
  rw [← abs_of_pos hp, ← abs_mul, abs_of_pos hp, sub_mul, div_mul_cancel₀ q hp.ne']

theorem le (h : Cut q r t) : r ≤ 2 ^ 53 := by
  have hp : (0 : ℚ) < 2 ^ t := by positivity
  have hd := abs_le.mp h.distance_le
  have hlt : q / 2 ^ t < 2 ^ 53 := (div_lt_iff₀ hp).mpr h.lt
  have hr : (r : ℚ) < 2 ^ 53 + 1 := by linarith
  exact Nat.lt_succ_iff.mp (by exact_mod_cast hr)

theorem le_significand (h : Cut q r t) : 2 ^ 52 ≤ r ∨ t = -1074 := by
  refine h.full.imp_left fun hfull => ?_
  have hp : (0 : ℚ) < 2 ^ t := by positivity
  have hd := abs_le.mp h.distance_le
  have hle : 2 ^ 52 ≤ q / 2 ^ t := (le_div_iff₀ hp).mpr hfull
  have hr : (2 : ℚ) ^ 52 < r + 1 := by linarith
  exact Nat.lt_succ_iff.mp (by exact_mod_cast hr)

theorem nearest_multiple (h : Cut q r t) (j : ℤ) (hj : (j : ℚ) ≠ r) :
    |r * 2 ^ t - q| < |j * 2 ^ t - q| ∨ |r * 2 ^ t - q| = |j * 2 ^ t - q| ∧ Even r := by
  have hp : (0 : ℚ) < 2 ^ t := by positivity
  have hapart : (1 : ℚ) ≤ |(j : ℚ) - r| := by
    have hne : j - r ≠ 0 := sub_ne_zero.mpr (by exact_mod_cast hj)
    exact_mod_cast Int.one_le_abs hne
  have htriangle : |(j : ℚ) - r| ≤ |(j : ℚ) - q / 2 ^ t| + |(r : ℚ) - q / 2 ^ t| := by
    rw [abs_sub_comm (r : ℚ)]
    exact abs_sub_le _ _ _
  rw [distance_eq, distance_eq]
  rcases h.nearest with hnear | ⟨htie, heven⟩
  · exact Or.inl (mul_lt_mul_of_pos_right (by linarith) hp)
  · rcases lt_or_eq_of_le (show |(r : ℚ) - q / 2 ^ t| ≤ |(j : ℚ) - q / 2 ^ t| by linarith)
      with hlt | heq
    · exact Or.inl (mul_lt_mul_of_pos_right hlt hp)
    · exact Or.inr ⟨by rw [heq], heven⟩

theorem le_multiple (h : Cut q r t) (j : ℤ) : |r * 2 ^ t - q| ≤ |j * 2 ^ t - q| := by
  by_cases hj : (j : ℚ) = r
  · rw [hj]
  · exact (h.nearest_multiple j hj).elim le_of_lt fun htie => htie.1.le

-- No number of the format is nearer.
theorem nearest_real (h : Cut q r t) {u : UnpackedFloat} (hu : IsReal u)
    (hne : rational u ≠ r * 2 ^ t) :
    |r * 2 ^ t - q| < |rational u - q| ∨ |r * 2 ^ t - q| = |rational u - q| ∧ Even r := by
  rcases multiple_or_lt hu t with ⟨j, hj⟩ | ⟨hlt, hleast⟩
  · rw [hj] at hne ⊢
    exact h.nearest_multiple j fun heq => hne (by rw [heq])
  · -- A number with digits behind the last place is below all that have as many digits as `q`.
    have hfull := h.full.resolve_right (by omega)
    have hcast : ((2 ^ 52 : ℤ) : ℚ) = 2 ^ 52 := by norm_num
    have hlow := h.le_multiple (2 ^ 52)
    rw [hcast, abs_of_nonpos (sub_nonpos.mpr hfull)] at hlow
    left
    calc
      |r * 2 ^ t - q| ≤ -(2 ^ 52 * 2 ^ t - q) := hlow
      _ < -(rational u - q) := by linarith
      _ ≤ |rational u - q| := neg_le_abs _

end Cut

-- Half a last place above the largest number that has the exponent `k`.
def halfAbove (k : ℤ) : ℚ := (2 ^ 53 - 1 / 2) * 2 ^ k

-- A number of the format nearest to `q`, taken apart before its exponent is checked against the
-- largest one.
inductive Rounds (q : ℚ) : UnpackedFloat → Prop
  | zero {t : ℤ} (hcut : Cut q 0 t) : Rounds q (.zero .positive)
  | finite {r m : ℕ} {t e : ℤ} (hcut : Cut q r t) (hm : Reduced m e)
      (hvalue : (m : ℚ) * 2 ^ e = r * 2 ^ t) (heven : Even r → Even m) :
      Rounds q (.finite .positive m e hm.pos)
  | infinity (hq : halfAbove 971 ≤ q) : Rounds q (.infinity .positive)

theorem mantissa_ofMantissaAndAccuracy (m : ℕ) (a : Accuracy) :
    (ExtendedMantissa.ofMantissaAndAccuracy m a).mantissa = m := by
  rcases a with _ | _ | _ | _ <;> rfl

theorem div_two_zpow (q : ℚ) (e : ℤ) (k : ℕ) : q / 2 ^ e / 2 ^ k = q / 2 ^ (e + k) := by
  rw [div_div, ← zpow_natCast, ← zpow_add₀ (by norm_num)]

-- The exponent of the last place that the format has for `m * 2^e`.
def lastPlace (m : ℕ) (e : ℤ) : ℤ := max (m.log2 + 1 + e - 53) (-1074)

section Shifts

variable {m : ℕ} {e : ℤ} {a : Accuracy} {q : ℚ}

theorem le_lastPlace (hm : 2 ^ 52 ≤ m ∨ e ≤ -1074) : e ≤ lastPlace m e := by
  have hlog : 2 ^ 52 ≤ m → 52 ≤ m.log2 := fun hle => (Nat.le_log2 (by omega)).mpr hle
  unfold lastPlace
  omega

theorem shiftToTargetExponent_lastPlace (hm : 2 ^ 52 ≤ m ∨ e ≤ -1074) :
    shiftToTargetExponent Format.binary64 m e a =
      (ExtendedMantissa.ofMantissaAndAccuracy m a >>> (lastPlace m e - e).toNat,
        lastPlace m e) := by
  have hle := le_lastPlace hm
  have htarget : Format.binary64.targetExponent (totalExponent m e) = lastPlace m e := rfl
  have hshift : e + (lastPlace m e - e).toNat = lastPlace m e := by omega
  unfold shiftToTargetExponent shiftToExponent
  rw [htarget, Prod.mk.injEq]
  exact ⟨rfl, hshift⟩

theorem cut_lastPlace (hmarks : Marks (.ofMantissaAndAccuracy m a) (q / 2 ^ e))
    (hm : 2 ^ 52 ≤ m ∨ e ≤ -1074) :
    Cut q (ExtendedMantissa.ofMantissaAndAccuracy m a >>> (lastPlace m e - e).toNat).roundedMantissa
      (lastPlace m e) := by
  have hp : (0 : ℚ) < 2 ^ e := by positivity
  have hle := le_lastPlace hm
  have hlow := hmarks.le
  have hhigh := hmarks.lt
  rw [mantissa_ofMantissaAndAccuracy] at hlow hhigh
  refine ⟨le_max_right _ _, ?_, ?_, ?_⟩
  · have hnext : (m : ℚ) + 1 ≤ 2 ^ (m.log2 + 1) := by exact_mod_cast Nat.lt_log2_self
    calc
      q < 2 ^ (m.log2 + 1) * 2 ^ e := (div_lt_iff₀ hp).mp (hhigh.trans_le hnext)
      _ = 2 ^ ((m.log2 + 1 : ℕ) + e) := by rw [zpow_add₀ (by norm_num), zpow_natCast]
      _ ≤ 2 ^ (53 + lastPlace m e) := by
        refine zpow_le_zpow_right₀ (by norm_num) ?_
        unfold lastPlace
        omega
      _ = 2 ^ 53 * 2 ^ lastPlace m e := by
        rw [zpow_add₀ (by norm_num)]
        rfl
  · rw [or_iff_not_imp_right]
    intro hleast
    have hplace : lastPlace m e = m.log2 + 1 + e - 53 := by
      unfold lastPlace at hleast ⊢
      omega
    have hm0 : m ≠ 0 := by
      rintro rfl
      rw [Nat.log2_zero] at hplace
      omega
    have hself : (2 : ℚ) ^ m.log2 ≤ m := by exact_mod_cast Nat.log2_self_le hm0
    calc
      (2 : ℚ) ^ 52 * 2 ^ lastPlace m e = 2 ^ (52 + lastPlace m e) := by
        rw [zpow_add₀ (by norm_num)]
        rfl
      _ = 2 ^ (m.log2 + e) := by
        congr 1
        omega
      _ = 2 ^ m.log2 * 2 ^ e := by rw [zpow_add₀ (by norm_num), zpow_natCast]
      _ ≤ m * 2 ^ e := by gcongr
      _ ≤ q := (le_div_iff₀ hp).mp hlow
  · have hshift : e + (lastPlace m e - e).toNat = lastPlace m e := by omega
    have hround := (hmarks.shiftRight (lastPlace m e - e).toNat).roundedMantissa
    rwa [div_two_zpow, hshift] at hround

theorem shiftToTargetExponent_zero (t : ℤ) :
    (shiftToTargetExponent Format.binary64 0 t .exact).1 = ⟨0, false, false⟩ := by
  have hshift := shiftRight_exact 0
  simp only [Nat.zero_mul] at hshift
  exact hshift _

-- Rounding up may add a digit, which a second shift takes away again.
theorem rounds_roundWithAccuracy (hmarks : Marks (.ofMantissaAndAccuracy m a) (q / 2 ^ e))
    (hm : 2 ^ 52 ≤ m ∨ e ≤ -1074) :
    Rounds q (roundWithAccuracy Format.binary64 .positive m e a) := by
  have hcut := cut_lastPlace hmarks hm
  unfold roundWithAccuracy
  rw [shiftToTargetExponent_lastPlace hm]
  dsimp only
  generalize ExtendedMantissa.roundedMantissa _ = r at hcut ⊢
  generalize lastPlace m e = t at hcut ⊢
  have hleast := hcut.least_le
  rcases Nat.eq_zero_or_pos r with rfl | hr
  · rw [shiftToTargetExponent_zero]
    exact .zero hcut
  rcases hcut.le.lt_or_eq with hlt | rfl
  · have hreduced : Reduced r t := ⟨hr, hlt, hleast, hcut.le_significand⟩
    have hsecond := shiftToTargetExponent_exact hreduced 0
    simp only [Nat.pow_zero, Nat.mul_one, Nat.cast_zero, sub_zero] at hsecond
    rw [hsecond]
    dsimp only
    rw [dif_neg hr.ne']
    exact .finite hcut hreduced rfl id
  · have hreduced : Reduced (2 ^ 52) (t + 1) := ⟨by positivity, by norm_num, by omega, .inl le_rfl⟩
    have hsecond := shiftToTargetExponent_exact hreduced 1
    rw [Nat.cast_one, add_sub_cancel_right, ← Nat.pow_add] at hsecond
    rw [hsecond]
    dsimp only
    have heven : Even (2 ^ 52) := ⟨2 ^ 51, by norm_num⟩
    have hvalue : ((2 ^ 52 : ℕ) : ℚ) * 2 ^ (t + 1) = (2 ^ 53 : ℕ) * 2 ^ t := by
      rw [zpow_add₀ (by norm_num)]
      push_cast
      ring
    rw [dif_neg (by positivity)]
    exact .finite hcut hreduced hvalue fun _ => heven

end Shifts

end TimingDiagram
