import TimingDiagram.Proofs.Number.Order

namespace TimingDiagram

open Float.Model (UnpackedFloat Format totalExponent)
open Float.Model.UnpackedFloat

theorem toNat_packComponents (s : Sign) (e : BitVec 11) (m : BitVec 52) :
    (packComponents Format.binary64 s e m).toNat =
      s.toBitVec.toNat * 2 ^ 63 + e.toNat * 2 ^ 52 + m.toNat := by
  have ha : ∀ (j k : Nat) (v : BitVec j) (w : BitVec k),
      (v ++ w).toNat = v.toNat * 2 ^ k + w.toNat := by
    intro j k v w
    rw [BitVec.toNat_append, ← Nat.shiftLeft_add_eq_or_of_lt w.isLt, Nat.shiftLeft_eq]
  simp only [packComponents]
  rw [ha, ha]
  ring

theorem log2_of_reduced {m : Nat} {e : Int} (h : Reduced m e) :
    m.log2 + 1 = 53 ↔ 2 ^ 52 ≤ m := by
  constructor
  · intro hl
    exact (Nat.le_log2 h.pos.ne').mp (by omega)
  · intro hl
    have h1 := (Nat.le_log2 h.pos.ne').mpr hl
    have h2 := (Nat.log2_lt h.pos.ne').mpr h.lt
    omega

-- The stored exponent of a number that is not too large.
theorem toNat_pack_finite {m : Nat} {e : Int} (s : Sign) (h : Reduced m e) (he : e ≤ 971) :
    (UnpackedFloat.pack Format.binary64 (.finite s m e h.pos)).toNat =
      s.toBitVec.toNat * 2 ^ 63 + (if 2 ^ 52 ≤ m then (e + 1075).toNat else 0) * 2 ^ 52
        + m % 2 ^ 52 := by
  have hb : (e + (Format.binary64.exponentBias : Int) +
      (Format.binary64.mantissaBitsWithoutImplicit : Int)).toNat = (e + 1075).toNat := by
    change (e + 1023 + 52).toNat = _
    rw [Int.add_assoc]
    rfl
  have hleast := h.least_le
  unfold UnpackedFloat.pack
  dsimp only
  rw [hb, if_neg (by omega)]
  split
  · rename_i hl
    rw [toNat_packComponents, if_pos ((log2_of_reduced h).mp hl), BitVec.toNat_ofNat,
      BitVec.toNat_ofNat, Nat.mod_eq_of_lt (by omega)]
  · rename_i hl
    rw [toNat_packComponents, if_neg (fun hm => hl ((log2_of_reduced h).mpr hm)),
      BitVec.toNat_ofNat]
    rfl

theorem toNat_toBitVec_sign (s : Sign) :
    s.toBitVec.toNat = if s == .negative then 1 else 0 := by
  cases s <;> rfl

theorem unpack_pack_finite {m : Nat} {e : Int} (s : Sign) (h : Reduced m e) (he : e ≤ 971) :
    UnpackedFloat.unpack Format.binary64
        (UnpackedFloat.pack Format.binary64 (.finite s m e h.pos)) = .finite s m e h.pos := by
  have hp := toNat_pack_finite s h he
  have hs := toNat_toBitVec_sign s
  obtain ⟨hpos, hlt, hleast, hfull⟩ := h
  generalize UnpackedFloat.pack Format.binary64 (.finite s m e hpos) = w at hp ⊢
  have hs1 : s.toBitVec.toNat < 2 := s.toBitVec.isLt
  have hstored : w.toNat / 2 ^ 52 % 2 ^ 11 = if 2 ^ 52 ≤ m then (e + 1075).toNat else 0 := by
    rw [hp]
    split <;> omega
  have hlow : w.toNat % 2 ^ 52 = m % 2 ^ 52 := by omega
  rw [unpack_word w (by rw [hstored]; split <;> omega)]
  refine Binary.unpacked_eq_finite _ s m e hpos ?_ ?_ ?_
  · unfold Binary.sign
    rw [Binary.negative_ofWord]
    cases s with
    | negative =>
        have hn : 2 ^ 63 ≤ w.toNat := by
          rw [hp, hs, if_pos (by decide)]
          omega
        rw [if_pos (decide_eq_true hn)]
    | positive =>
        have hn : ¬ 2 ^ 63 ≤ w.toNat := by
          rw [hp, hs, if_neg (by decide)]
          split <;> omega
        rw [if_neg (by simpa using hn)]
  · rw [Binary.significand_ofWord, hstored, hlow]
    split <;> split <;> omega
  · rw [Binary.exponent_ofWord, hstored]
    split <;> omega

theorem unpack_pack_zero (s : Sign) :
    UnpackedFloat.unpack Format.binary64 (UnpackedFloat.pack Format.binary64 (.zero s)) =
      .zero s := by
  cases s <;> rfl

theorem unpack_packedInfinity (s : Sign) :
    UnpackedFloat.unpack Format.binary64 (packedInfinity Format.binary64 s) = .infinity s := by
  cases s <;> rfl

theorem targetExponent_double (t : Int) :
    Format.binary64.targetExponent t = max (t - 53) (-1074) := rfl

theorem log2_mul_two_pow (m k : Nat) (hm : m ≠ 0) : (m * 2 ^ k).log2 = m.log2 + k := by
  induction k with
  | zero => simp
  | succ k ih =>
      have hk : m * 2 ^ k ≠ 0 := Nat.mul_ne_zero hm (by positivity)
      rw [show m * 2 ^ (k + 1) = 2 * (m * 2 ^ k) by ring, Nat.log2_two_mul hk, ih]
      rfl

theorem targetExponent_reduced {m : Nat} {e : Int} (h : Reduced m e) (k : Nat) :
    Format.binary64.targetExponent (totalExponent (m * 2 ^ k) (e - k)) = e := by
  have hl := log2_of_reduced h
  have hlt := (Nat.log2_lt h.pos.ne').mpr h.lt
  have hleast := h.least_le
  have hfull := h.full
  rw [targetExponent_double, totalExponent, log2_mul_two_pow m k h.pos.ne']
  omega

-- Binary zeros at the end are shifted out without a trace.
theorem shiftRight_exact (m k : Nat) :
    (⟨m * 2 ^ k, false, false⟩ : ExtendedMantissa) >>> k = ⟨m, false, false⟩ := by
  change Nat.repeat ExtendedMantissa.shiftRightOne k _ = _
  induction k generalizing m with
  | zero => simp [Nat.repeat]
  | succ k ih =>
      rw [Nat.repeat, show m * 2 ^ (k + 1) = (m * 2) * 2 ^ k by ring, ih (m * 2)]
      simp [ExtendedMantissa.shiftRightOne]

theorem shiftToTargetExponent_exact {m : Nat} {e : Int} (h : Reduced m e) (k : Nat) :
    shiftToTargetExponent Format.binary64 (m * 2 ^ k) (e - k) .exact =
      (⟨m, false, false⟩, e) := by
  unfold shiftToTargetExponent shiftToExponent
  rw [targetExponent_reduced h k]
  have hk : (e - (e - k)).toNat = k := by omega
  simp only [hk, ExtendedMantissa.ofMantissaAndAccuracy, shiftRight_exact, Prod.mk.injEq, true_and]
  omega

-- A number of the format is its own rounding.
theorem roundWithAccuracy_exact {m : Nat} {e : Int} (s : Sign) (h : Reduced m e) (k : Nat) :
    roundWithAccuracy Format.binary64 s (m * 2 ^ k) (e - k) .exact = .finite s m e h.pos := by
  have hsecond := shiftToTargetExponent_exact h 0
  simp only [Nat.pow_zero, Nat.mul_one, Nat.cast_zero, sub_zero] at hsecond
  unfold roundWithAccuracy
  rw [shiftToTargetExponent_exact h k]
  simp only [ExtendedMantissa.roundedMantissa, ExtendedMantissa.accuracy,
    Accuracy.roundToNearestEven, hsecond]
  rw [dif_neg h.pos.ne']

end TimingDiagram
