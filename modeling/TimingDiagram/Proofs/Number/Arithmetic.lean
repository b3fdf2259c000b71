import TimingDiagram.Proofs.Number.Rounding

namespace TimingDiagram

open Float.Model (UnpackedFloat Format totalExponent)
open Float.Model.UnpackedFloat

theorem unpack_zero : (0.0 : Float).toModel.unpack = .zero .positive := rfl

theorem unpack_one :
    (1.0 : Float).toModel.unpack = .finite .positive (2 ^ 52) (-52) (by positivity) := rfl

theorem isFinite_of_unpack {x : Float} {s : Sign} {m : Nat} {e : Int} {hm : 0 < m}
    (hx : x.toModel.unpack = .finite s m e hm) : x.isFinite = true := by
  change x.toModel.unpack.isFinite = true
  rw [hx]
  rfl

theorem exactValue_of_unpack {x : Float} {s : Sign} {m : Nat} {e : Int} {hm : 0 < m}
    (hx : x.toModel.unpack = .finite s m e hm) :
    exactValue x = (if s == .negative then -1 else 1) * m * 2 ^ e := by
  rw [← rational_unpack (isFinite_of_unpack hx), hx]
  rfl

theorem exactValue_zero : exactValue 0.0 = 0 := by
  rw [← rational_unpack (x := 0.0) rfl, unpack_zero]
  rfl

theorem exactValue_one : exactValue 1.0 = 1 := by
  rw [exactValue_of_unpack unpack_one, if_neg (by decide)]
  norm_num

theorem pack_overflow {m : Nat} {e : Int} (s : Sign) (hm : 0 < m) (he : 971 < e) :
    UnpackedFloat.pack Format.binary64 (.finite s m e hm) = packedInfinity Format.binary64 s := by
  have hb : (e + (Format.binary64.exponentBias : Int) +
      (Format.binary64.mantissaBitsWithoutImplicit : Int)).toNat = (e + 1075).toNat := by
    change (e + 1023 + 52).toNat = _
    rw [Int.add_assoc]
    rfl
  unfold UnpackedFloat.pack
  dsimp only
  rw [hb, if_pos (by omega)]

-- Twice a number of the format is one again, short of the largest exponent.
theorem mul_two {m : Nat} {e : Int} (s : Sign) (h : Reduced m e) :
    ∃ (n : Nat) (f : Int) (hn : Reduced n f),
      UnpackedFloat.mul Format.binary64 (.finite .positive (2 ^ 52) (-51) (by positivity))
        (.finite s m e h.pos) = .finite s n f hn.pos ∧
      (n : ℚ) * 2 ^ f = 2 * (m * 2 ^ e) := by
  have hs : Sign.positive * s = s := by cases s <;> rfl
  by_cases hm : 2 ^ 52 ≤ m
  · have hn : Reduced m (e + 1) := ⟨h.pos, h.lt, by have := h.least_le; omega, Or.inl hm⟩
    refine ⟨m, e + 1, hn, ?_, ?_⟩
    · change roundWithAccuracy Format.binary64 (Sign.positive * s) (2 ^ 52 * m) (-51 + e) .exact = _
      rw [hs, ← roundWithAccuracy_exact s hn 52, Nat.mul_comm]
      congr 1
      push_cast
      ring
    · rw [zpow_add₀ (by norm_num)]
      ring
  · have he : e = -1074 := h.full.resolve_left hm
    have hn : Reduced (2 * m) e := ⟨by have := h.pos; omega, by omega, h.least_le, Or.inr he⟩
    refine ⟨2 * m, e, hn, ?_, ?_⟩
    · change roundWithAccuracy Format.binary64 (Sign.positive * s) (2 ^ 52 * m) (-51 + e) .exact = _
      rw [hs, ← roundWithAccuracy_exact s hn 51, show 2 ^ 52 * m = 2 * m * 2 ^ 51 by ring]
      congr 1
      push_cast
      ring
    · push_cast
      ring

theorem unpack_mul_two (x : Float) :
    (2.0 * x).toModel.unpack = UnpackedFloat.unpack Format.binary64
      (UnpackedFloat.pack Format.binary64 (UnpackedFloat.mul Format.binary64
        (.finite .positive (2 ^ 52) (-51) (by positivity)) x.toModel.unpack)) := rfl

-- Doubling a finite double is exact or overflows to the infinity of the same sign.
theorem unpack_double {x : Float} {s : Sign} {m : Nat} {e : Int} {hm : 0 < m}
    (hx : x.toModel.unpack = .finite s m e hm) :
    (2.0 * x).toModel.unpack = .infinity s ∨
      (2.0 * x).isFinite = true ∧ exactValue (2.0 * x) = 2 * exactValue x := by
  have hr := isReal_unpack (isFinite_of_unpack hx)
  rw [hx] at hr
  obtain ⟨n, f, hn, hmul, hv⟩ := mul_two s hr
  have hu := unpack_mul_two x
  rw [hx, hmul] at hu
  by_cases hf : f ≤ 971
  · rw [unpack_pack_finite s hn hf] at hu
    right
    refine ⟨isFinite_of_unpack hu, ?_⟩
    rw [exactValue_of_unpack hu, exactValue_of_unpack hx, mul_assoc, mul_assoc, hv]
    ring
  · rw [pack_overflow s hn.pos (by omega), unpack_packedInfinity] at hu
    exact Or.inl hu

theorem unpack_double_zero {x : Float} {s : Sign} (hx : x.toModel.unpack = .zero s) :
    (2.0 * x).toModel.unpack = .zero s := by
  have hs : Sign.positive * s = s := by cases s <;> rfl
  rw [unpack_mul_two, hx]
  change UnpackedFloat.unpack Format.binary64
    (UnpackedFloat.pack Format.binary64 (.zero (Sign.positive * s))) = _
  rw [unpack_pack_zero, hs]

theorem unpack_double_infinity {x : Float} {s : Sign} (hx : x.toModel.unpack = .infinity s) :
    (2.0 * x).toModel.unpack = .infinity s := by
  have hs : Sign.positive * s = s := by cases s <;> rfl
  rw [unpack_mul_two, hx]
  change UnpackedFloat.unpack Format.binary64
    (packedInfinity Format.binary64 (Sign.positive * s)) = _
  rw [unpack_packedInfinity, hs]

theorem unpack_double_nan {x : Float} (hx : x.toModel.unpack = .notANumber) :
    (2.0 * x).toModel.unpack = .notANumber := by
  rw [unpack_mul_two, hx]
  rfl

-- Doubling keeps the kind of a double and its side of zero, and is exact unless it overflows.
theorem double_cases (x : Float) :
    x.isNaN = true ∧ (2.0 * x).isNaN = true ∨
      x.isNaN = false ∧ (2.0 * x).isInf = true ∧ (0.0 < 2.0 * x ↔ 0.0 < x) ∨
      x.isNaN = false ∧ (2.0 * x).isFinite = true ∧ exactValue (2.0 * x) = 2 * exactValue x := by
  have hkind : x.isNaN = x.toModel.unpack.isNaN := rfl
  have hnan : (2.0 * x).isNaN = (2.0 * x).toModel.unpack.isNaN := rfl
  have hinf : (2.0 * x).isInf = (2.0 * x).toModel.unpack.isInf := rfl
  have hfin : (2.0 * x).isFinite = (2.0 * x).toModel.unpack.isFinite := rfl
  rw [hkind, hnan, hinf, lt_iff_compare, lt_iff_compare, unpack_zero]
  cases hu : x.toModel.unpack with
  | notANumber =>
      rw [unpack_double_nan hu]
      exact .inl ⟨rfl, rfl⟩
  | infinity s =>
      rw [unpack_double_infinity hu]
      exact .inr (.inl ⟨rfl, rfl, Iff.rfl⟩)
  | zero s =>
      have hz : (2.0 * x).toModel.unpack.isFinite = true := by
        rw [unpack_double_zero hu]
        rfl
      have hx : x.isFinite = true := by
        change x.toModel.unpack.isFinite = true
        rw [hu]
        rfl
      refine .inr (.inr ⟨rfl, hz, ?_⟩)
      rw [← rational_unpack hx, ← rational_unpack hz, hu, unpack_double_zero hu]
      exact (mul_zero 2).symm
  | finite s m e hm =>
      rcases unpack_double hu with hd | ⟨hd, hv⟩
      · rw [hd]
        refine .inr (.inl ⟨rfl, rfl, ?_⟩)
        cases s <;> exact Iff.rfl
      · exact .inr (.inr ⟨rfl, hd, hv⟩)

-- The exponent of a whole number below `2^52` leaves room for all of its binary digits.
theorem exponent_of_small {m : Nat} {e : Int} (h : Reduced m e) (t : Nat) (ht : 0 < t)
    (hlt : t < 2 ^ 52) (hv : (m : ℚ) * 2 ^ e = t) : -52 ≤ e ∧ e < 0 := by
  have hm : (m : ℚ) < 2 ^ 53 := by exact_mod_cast h.lt
  have ht1 : (1 : ℚ) ≤ t := by exact_mod_cast ht
  have htq : (t : ℚ) < 2 ^ 52 := by exact_mod_cast hlt
  have hlow : -52 ≤ e := by
    by_contra hn
    have he : (2 : ℚ) ^ e ≤ 2 ^ (-53 : ℤ) := zpow_le_zpow_right₀ (by norm_num) (by omega)
    have hlt : (m : ℚ) * 2 ^ e < 2 ^ 53 * 2 ^ (-53 : ℤ) := by
      calc
        (m : ℚ) * 2 ^ e < 2 ^ 53 * 2 ^ e := mul_lt_mul_of_pos_right hm (by positivity)
        _ ≤ 2 ^ 53 * 2 ^ (-53 : ℤ) := by gcongr
    norm_num at hlt
    linarith
  refine ⟨hlow, ?_⟩
  by_contra hn
  have hfull : (2 : ℚ) ^ 52 ≤ m := by exact_mod_cast h.full.resolve_right (by omega)
  have he : (1 : ℚ) ≤ 2 ^ e := one_le_zpow₀ (by norm_num) (by omega)
  have hp : (0 : ℚ) ≤ m := by positivity
  nlinarith

-- A whole number of at most 53 binary digits, widened to 53 of them.
theorem reduced_natCast {n : Nat} (hn : 0 < n) (hlt : n < 2 ^ 53) :
    Reduced (n * 2 ^ (52 - n.log2)) (n.log2 - 52) := by
  have hlog : n.log2 < 53 := (Nat.log2_lt hn.ne').mpr hlt
  have hself := Nat.log2_self_le hn.ne'
  have hnext := Nat.lt_log2_self (n := n)
  have hsplit : 2 ^ 52 = 2 ^ n.log2 * 2 ^ (52 - n.log2) := by
    rw [← Nat.pow_add, Nat.add_sub_of_le (by omega)]
  have hsplit53 : 2 ^ 53 = 2 ^ (n.log2 + 1) * 2 ^ (52 - n.log2) := by
    rw [← Nat.pow_add]
    congr 1
    omega
  refine ⟨by positivity, ?_, by omega, Or.inl ?_⟩
  · rw [hsplit53]
    exact Nat.mul_lt_mul_of_pos_right hnext (by positivity)
  · rw [hsplit]
    exact Nat.mul_le_mul_right _ hself

theorem value_natCast {n : Nat} (hn : 0 < n) (hlt : n < 2 ^ 53) :
    ((n * 2 ^ (52 - n.log2) : ℕ) : ℚ) * 2 ^ ((n.log2 : Int) - 52) = n := by
  have hlog : n.log2 < 53 := (Nat.log2_lt hn.ne').mpr hlt
  have hq : (2 : ℚ) ^ ((n.log2 : Int) - 52) = (2 ^ (52 - n.log2))⁻¹ := by
    rw [show (n.log2 : Int) - 52 = -((52 - n.log2 : ℕ) : Int) by omega, zpow_neg, zpow_natCast]
  rw [hq]
  push_cast
  rw [mul_assoc, mul_inv_cancel₀ (by positivity), mul_one]

-- Rounding it is exact, whatever zeros stand behind its digits.
theorem round_natCast {n : Nat} (hn : 0 < n) (hlt : n < 2 ^ 53) (k : Nat) :
    UnpackedFloat.round Format.binary64 .positive (n * 2 ^ k) (-k) =
      .finite .positive (n * 2 ^ (52 - n.log2)) (n.log2 - 52) (reduced_natCast hn hlt).pos := by
  have hlog : n.log2 < 53 := (Nat.log2_lt hn.ne').mpr hlt
  have htarget : Format.binary64.targetExponent (totalExponent (n * 2 ^ k) (-k)) = n.log2 - 52 := by
    rw [targetExponent_double, totalExponent, log2_mul_two_pow n k hn.ne']
    push_cast
    omega
  obtain ⟨s, hs⟩ : ∃ s, s = (-(k : Int) - (n.log2 - 52)).toNat := ⟨_, rfl⟩
  have hexact := roundWithAccuracy_exact .positive (reduced_natCast hn hlt)
    (k + s - (52 - n.log2))
  unfold UnpackedFloat.round decreaseExponent
  simp only [htarget, ← hs, Nat.shiftLeft_eq]
  rw [← hexact]
  congr 1
  · rw [Nat.mul_assoc, Nat.mul_assoc, ← Nat.pow_add, ← Nat.pow_add]
    congr 2
    omega
  · omega

theorem round_whole (t : Nat) (ht : 0 < t) (hlt : t ≤ 2 ^ 52) :
    ∃ (n : Nat) (f : Int) (hn : Reduced n f), f ≤ 0 ∧
      UnpackedFloat.round Format.binary64 .positive (t * 2 ^ 52) (-52) =
        .finite .positive n f hn.pos ∧
      (n : ℚ) * 2 ^ f = t := by
  have hlt : t < 2 ^ 53 := by omega
  have hlog : t.log2 < 53 := (Nat.log2_lt ht.ne').mpr hlt
  exact ⟨_, _, reduced_natCast ht hlt, by omega, round_natCast ht hlt 52, value_natCast ht hlt⟩

theorem normalize_natCast (m : Nat) (e : Int) (s : Sign) (hm : 0 < m) :
    UnpackedFloat.normalize Format.binary64 m e s =
      UnpackedFloat.round Format.binary64 .positive m e := by
  unfold UnpackedFloat.normalize
  rw [compare_gt_iff_gt.mpr (by omega : (m : Int) > 0)]
  rfl

-- Adding one to a whole number below `2^52` is exact.
theorem add_one {m : Nat} {e : Int} (h : Reduced m e) (t : Nat) (ht : 0 < t) (hlt : t < 2 ^ 52)
    (hv : (m : ℚ) * 2 ^ e = t) :
    ∃ (n : Nat) (f : Int) (hn : Reduced n f), f ≤ 0 ∧
      UnpackedFloat.add Format.binary64 (.finite .positive m e h.pos)
        (.finite .positive (2 ^ 52) (-52) (by positivity)) = .finite .positive n f hn.pos ∧
      (n : ℚ) * 2 ^ f = t + 1 := by
  obtain ⟨hlow, hhigh⟩ := exponent_of_small h t ht hlt hv
  obtain ⟨n, f, hn, hf, hround, hval⟩ := round_whole (t + 1) (by omega) (by omega)
  have hsum : m * 2 ^ (e + 52).toNat = t * 2 ^ 52 := by
    have hq : ((m * 2 ^ (e + 52).toNat : ℕ) : ℚ) = ((t * 2 ^ 52 : ℕ) : ℚ) := by
      push_cast
      rw [← zpow_natCast, Int.toNat_of_nonneg (by omega), zpow_add₀ (by norm_num), ← mul_assoc, hv]
      norm_num
    exact_mod_cast hq
  refine ⟨n, f, hn, hf, ?_, by rw [hval]; push_cast; rfl⟩
  have hmin : min e (-52) = -52 := by omega
  have hshift : (e - -52).toNat = (e + 52).toNat := by omega
  unfold UnpackedFloat.add decreaseExponent
  simp only [hmin, hshift]
  rw [← hround, ← normalize_natCast _ _ .positive (by positivity)]
  congr 1
  change ((m <<< (e + 52).toNat : Nat) : Int) + ((2 ^ 52 <<< 0 : Nat) : Int) = _
  rw [Nat.shiftLeft_eq, hsum, Nat.shiftLeft_eq]
  push_cast
  ring

-- Adding 1 to a double that holds a whole number below `2^52` is exact.
theorem exactValue_add_one {x : Float} (hx : x.isFinite = true) (t : Nat) (hlt : t < 2 ^ 52)
    (hv : exactValue x = t) :
    (x + 1.0).isFinite = true ∧ exactValue (x + 1.0) = t + 1 := by
  have hr := isReal_unpack hx
  have hq := rational_unpack hx
  have hu : (x + 1.0).toModel.unpack = UnpackedFloat.unpack Format.binary64
      (UnpackedFloat.pack Format.binary64 (UnpackedFloat.add Format.binary64 x.toModel.unpack
        (.finite .positive (2 ^ 52) (-52) (by positivity)))) := rfl
  have hone : Reduced (2 ^ 52) (-52) := ⟨by positivity, by norm_num, by norm_num, Or.inl le_rfl⟩
  generalize x.toModel.unpack = u at hr hq hu
  cases u with
  | infinity s => exact hr.elim
  | notANumber => exact hr.elim
  | zero s =>
      have ht : (t : ℚ) = 0 := by rw [← hv, ← hq]; rfl
      have hw : (x + 1.0).toModel.unpack = .finite .positive (2 ^ 52) (-52) (by positivity) :=
        hu.trans (unpack_pack_finite .positive hone (by norm_num))
      refine ⟨isFinite_of_unpack hw, ?_⟩
      rw [exactValue_of_unpack hw, ht, if_neg (by decide)]
      norm_num
  | finite s m e hm =>
      have hmq : (0 : ℚ) < m := by exact_mod_cast hm
      have hpow : (0 : ℚ) < 2 ^ e := by positivity
      have hmag : (0 : ℚ) < m * 2 ^ e := by positivity
      rw [hv] at hq
      cases s with
      | negative =>
          exfalso
          have hneg : -1 * (m : ℚ) * 2 ^ e = t := hq
          have ht : (0 : ℚ) ≤ t := by positivity
          linarith
      | positive =>
          have hval : (m : ℚ) * 2 ^ e = t := by
            rw [← hq]
            change _ = 1 * (m : ℚ) * 2 ^ e
            rw [one_mul]
          have ht : 0 < t := by
            rw [hval] at hmag
            exact_mod_cast hmag
          obtain ⟨n, f, hn, hf, hadd, hsum⟩ := add_one hr t ht hlt hval
          rw [hadd, unpack_pack_finite .positive hn (by omega)] at hu
          refine ⟨isFinite_of_unpack hu, ?_⟩
          rw [exactValue_of_unpack hu, if_neg (by decide), one_mul, hsum]

end TimingDiagram
