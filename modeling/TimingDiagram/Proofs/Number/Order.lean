import TimingDiagram.Proofs.Number.Value

namespace TimingDiagram

open Float.Model (UnpackedFloat Format)
open Float.Model.UnpackedFloat

-- The exact value of a finite double.
def exactValue (x : Float) : ℚ := (Binary.ofFloat x).value

-- The value of a number taken apart; infinities and NaN count as zero.
def rational : UnpackedFloat → ℚ
  | .finite s m e _ => (if s == .negative then -1 else 1) * m * 2 ^ e
  | _ => 0

-- A finite number of the format, taken apart.
def IsReal : UnpackedFloat → Prop
  | .finite _ m e _ => Reduced m e
  | .zero _ => True
  | _ => False

theorem rational_unpacked (b : Binary) : rational b.unpacked = b.value := by
  unfold Binary.unpacked Binary.value
  split
  · rename_i hz
    simp [rational, hz]
  · unfold rational Binary.sign
    cases b.negative <;> rfl

section Doubles

variable {x y : Float}

theorem not_isFinite_of_stored (hx : x.toBits.toNat / 2 ^ 52 % 2 ^ 11 = 2047) :
    x.isFinite = false := by
  have hv : @unpackExponent Format.binary64 x.toBits.toBitVec = -1#11 :=
    BitVec.eq_of_toNat_eq ((toNat_unpackExponent _).trans hx)
  change (UnpackedFloat.unpack Format.binary64 x.toBits.toBitVec).isFinite = false
  unfold UnpackedFloat.unpack
  dsimp only
  rw [if_pos hv]
  split <;> rfl

theorem stored_ne_of_isFinite (hx : x.isFinite = true) :
    x.toBits.toNat / 2 ^ 52 % 2 ^ 11 ≠ 2047 := by
  intro h
  rw [not_isFinite_of_stored h] at hx
  exact Bool.false_ne_true hx

theorem unpack_of_isFinite (hx : x.isFinite = true) :
    x.toModel.unpack = (Binary.ofFloat x).unpacked :=
  unpack_word x.toBits.toBitVec (stored_ne_of_isFinite hx)

theorem rational_unpack (hx : x.isFinite = true) : rational x.toModel.unpack = exactValue x := by
  rw [unpack_of_isFinite hx, rational_unpacked, exactValue]

theorem isReal_unpack (hx : x.isFinite = true) : IsReal x.toModel.unpack := by
  rw [unpack_of_isFinite hx, Binary.unpacked]
  split
  · trivial
  · rename_i hn
    exact reduced_ofWord x.toBits.toNat hn

theorem unpack_of_isInf (hx : x.isInf = true) : ∃ s, x.toModel.unpack = .infinity s := by
  change x.toModel.unpack.isInf = true at hx
  cases hu : x.toModel.unpack with
  | infinity s => exact ⟨s, rfl⟩
  | notANumber | zero | finite =>
      rw [hu] at hx
      cases hx

theorem isFinite_eq (x : Float) : x.isFinite = (!x.isNaN && !x.isInf) := by
  change x.toModel.unpack.isFinite = (!x.toModel.unpack.isNaN && !x.toModel.unpack.isInf)
  cases x.toModel.unpack <;> rfl

theorem not_isNaN_and_not_isInf (hx : x.isFinite = true) : x.isNaN = false ∧ x.isInf = false := by
  rw [isFinite_eq, Bool.and_eq_true, Bool.not_eq_true', Bool.not_eq_true'] at hx
  exact hx

theorem isFinite_of_not (hnan : ¬ x.isNaN = true) (hinf : ¬ x.isInf = true) :
    x.isFinite = true := by
  rw [isFinite_eq, (Bool.not_eq_true _).mp hnan, (Bool.not_eq_true _).mp hinf]
  rfl

end Doubles

theorem mul_zpow_lt {m n : Nat} {e f : Int} (hm : Reduced m e) (hn : Reduced n f) (he : e < f) :
    (m : ℚ) * 2 ^ e < n * 2 ^ f := by
  have hn52 : 2 ^ 52 ≤ n := hn.full.resolve_right (by have := hm.least_le; omega)
  have hmq : (m : ℚ) < 2 ^ 53 := by exact_mod_cast hm.lt
  have hnq : (2 : ℚ) ^ 52 ≤ n := by exact_mod_cast hn52
  calc
    (m : ℚ) * 2 ^ e < 2 ^ 53 * 2 ^ e := by
      exact mul_lt_mul_of_pos_right hmq (by positivity)
    _ = 2 ^ 52 * 2 ^ (e + 1) := by
      rw [zpow_add₀ (by norm_num)]
      ring
    _ ≤ 2 ^ 52 * 2 ^ f := by
      gcongr
      · norm_num
      · omega
    _ ≤ n * 2 ^ f := by gcongr

-- Exponents first, then digits: the order of doubles is the order of their values.
theorem compare_magnitudes {m n : Nat} {e f : Int} (hm : Reduced m e) (hn : Reduced n f) :
    (compare e f).then (compare m n) = compare ((m : ℚ) * 2 ^ e) (n * 2 ^ f) := by
  rcases lt_trichotomy e f with he | rfl | he
  · rw [compare_lt_iff_lt.mpr he, compare_lt_iff_lt.mpr (mul_zpow_lt hm hn he)]
    rfl
  · have hp : (0 : ℚ) < 2 ^ e := by positivity
    rw [compare_eq_iff_eq.mpr rfl, Ordering.then]
    rcases lt_trichotomy m n with h | rfl | h
    · rw [compare_lt_iff_lt.mpr h, compare_lt_iff_lt.mpr]
      exact mul_lt_mul_of_pos_right (by exact_mod_cast h) hp
    · rw [compare_eq_iff_eq.mpr rfl, compare_eq_iff_eq.mpr rfl]
    · rw [compare_gt_iff_gt.mpr h, compare_gt_iff_gt.mpr]
      exact mul_lt_mul_of_pos_right (by exact_mod_cast h) hp
  · rw [compare_gt_iff_gt.mpr he, compare_gt_iff_gt.mpr (mul_zpow_lt hn hm he)]
    rfl

theorem compare_neg_neg (p q : ℚ) : compare (-p) (-q) = (compare p q).swap := by
  rcases lt_trichotomy p q with h | rfl | h
  · rw [compare_lt_iff_lt.mpr h, compare_gt_iff_gt.mpr (neg_lt_neg h)]
    rfl
  · rw [compare_eq_iff_eq.mpr rfl, compare_eq_iff_eq.mpr rfl]
    rfl
  · rw [compare_gt_iff_gt.mpr h, compare_lt_iff_lt.mpr (neg_lt_neg h)]
    rfl

theorem rational_pos (m : Nat) (e : Int) (hm : 0 < m) :
    0 < rational (.finite .positive m e hm) := by
  have hq : (0 : ℚ) < m := by exact_mod_cast hm
  change 0 < 1 * (m : ℚ) * 2 ^ e
  positivity

theorem rational_neg (m : Nat) (e : Int) (hm : 0 < m) :
    rational (.finite .negative m e hm) = -rational (.finite .positive m e hm) := by
  change -1 * (m : ℚ) * 2 ^ e = -(1 * (m : ℚ) * 2 ^ e)
  ring

theorem rational_negative_lt (m : Nat) (e : Int) (hm : 0 < m) :
    rational (.finite .negative m e hm) < 0 := by
  rw [rational_neg]
  exact neg_lt_zero.mpr (rational_pos m e hm)

-- Numbers on different sides of zero are told apart by their signs, others by their magnitudes.
theorem compare_finite {m n : Nat} {e f : Int} (s t : Sign) (hm : Reduced m e) (hn : Reduced n f) :
    (UnpackedFloat.finite s m e hm.pos).compare (.finite t n f hn.pos) =
      some (compare (rational (.finite s m e hm.pos)) (rational (.finite t n f hn.pos))) := by
  have hmagnitudes : (compare e f).then (compare m n) = compare
      (rational (.finite .positive m e hm.pos)) (rational (.finite .positive n f hn.pos)) := by
    rw [compare_magnitudes hm hn]
    change _ = compare (1 * (m : ℚ) * 2 ^ e) (1 * (n : ℚ) * 2 ^ f)
    rw [one_mul, one_mul]
  cases s with
  | negative =>
      cases t with
      | negative =>
          rw [rational_neg, rational_neg, compare_neg_neg, ← hmagnitudes]
          rfl
      | positive =>
          have hlt := (rational_negative_lt m e hm.pos).trans (rational_pos n f hn.pos)
          exact congrArg some (compare_lt_iff_lt.mpr hlt).symm
  | positive =>
      cases t with
      | negative =>
          have hlt := (rational_negative_lt n f hn.pos).trans (rational_pos m e hm.pos)
          exact congrArg some (compare_gt_iff_gt.mpr hlt).symm
      | positive =>
          rw [← hmagnitudes]
          rfl

theorem compare_unpacked (u v : UnpackedFloat) (hu : IsReal u) (hv : IsReal v) :
    u.compare v = some (compare (rational u) (rational v)) := by
  cases u with
  | infinity | notANumber => exact hu.elim
  | zero s =>
      cases v with
      | infinity | notANumber => exact hv.elim
      | zero t => exact congrArg some (compare_eq_iff_eq.mpr rfl).symm
      | finite t n f hn =>
          cases t with
          | negative =>
              exact congrArg some (compare_gt_iff_gt.mpr (rational_negative_lt n f hn)).symm
          | positive => exact congrArg some (compare_lt_iff_lt.mpr (rational_pos n f hn)).symm
  | finite s m e hm =>
      cases v with
      | infinity | notANumber => exact hv.elim
      | zero t =>
          cases s with
          | negative =>
              exact congrArg some (compare_lt_iff_lt.mpr (rational_negative_lt m e hm)).symm
          | positive => exact congrArg some (compare_gt_iff_gt.mpr (rational_pos m e hm)).symm
      | finite t n f hn => exact compare_finite s t hu hv

theorem compare_doubles {x y : Float} (hx : x.isFinite = true) (hy : y.isFinite = true) :
    x.toModel.unpack.compare y.toModel.unpack = some (compare (exactValue x) (exactValue y)) := by
  rw [compare_unpacked _ _ (isReal_unpack hx) (isReal_unpack hy), rational_unpack hx,
    rational_unpack hy]

theorem lt_iff_compare (x y : Float) :
    x < y ↔ x.toModel.unpack.compare y.toModel.unpack = some .lt := by
  change decide (x.toModel < y.toModel) = true ↔ _
  rw [decide_eq_true_iff]
  change (x.toModel.unpack.compare y.toModel.unpack == some .lt) = true ↔ _
  rw [beq_iff_eq]

theorem le_iff_compare (x y : Float) :
    x ≤ y ↔ (x.toModel.unpack.compare y.toModel.unpack).any (·.isLE) = true := by
  change decide (x.toModel ≤ y.toModel) = true ↔ _
  rw [decide_eq_true_iff]
  rfl

theorem lt_iff_exactValue_lt {x y : Float} (hx : x.isFinite = true) (hy : y.isFinite = true) :
    x < y ↔ exactValue x < exactValue y := by
  rw [lt_iff_compare, compare_doubles hx hy, Option.some_inj, compare_lt_iff_lt]

theorem le_iff_exactValue_le {x y : Float} (hx : x.isFinite = true) (hy : y.isFinite = true) :
    x ≤ y ↔ exactValue x ≤ exactValue y := by
  rw [le_iff_compare, compare_doubles hx hy, Option.any_some, Ordering.isLE_iff_ne_gt,
    ← compare_le_iff_le]

end TimingDiagram
