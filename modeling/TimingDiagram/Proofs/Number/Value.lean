import Mathlib
import TimingDiagram.Number.Binary

namespace TimingDiagram

open Float.Model (UnpackedFloat Format)
open Float.Model.UnpackedFloat

namespace Binary

-- The exact value of a binary number.
def value (b : Binary) : ℚ :=
  (if b.negative then -1 else 1) * b.significand * 2 ^ b.exponent

def sign (b : Binary) : Sign := if b.negative then .negative else .positive

-- A binary number as the arithmetic of doubles sees it.
def unpacked (b : Binary) : UnpackedFloat :=
  if h : b.significand = 0 then .zero b.sign
  else .finite b.sign b.significand b.exponent (Nat.pos_of_ne_zero h)

theorem unpacked_eq_finite (b : Binary) (s : Sign) (m : Nat) (e : Int) (hm : 0 < m)
    (hs : b.sign = s) (hsig : b.significand = m) (he : b.exponent = e) :
    b.unpacked = .finite s m e hm := by
  subst hs hsig he
  rw [unpacked, dif_neg hm.ne']

theorem ofFields_eq (negative : Bool) (fraction : Nat) (least : Int) (bits : Nat) :
    ofFields negative fraction least bits =
      if bits / 2 ^ fraction = 0 then ⟨negative, bits % 2 ^ fraction, least, false⟩
      else ⟨negative, bits % 2 ^ fraction + 2 ^ fraction, least + (bits / 2 ^ fraction - 1 : Nat),
        bits % 2 ^ fraction = 0 && bits / 2 ^ fraction ≠ 1⟩ :=
  rfl

-- The number that a 64-bit word stands for, if it is finite.
def ofWord (n : Nat) : Binary := ofFields (2 ^ 63 ≤ n) 52 (-1074) (n % 2 ^ 63)

theorem ofWord_eq (n : Nat) :
    ofWord n =
      if n / 2 ^ 52 % 2 ^ 11 = 0 then ⟨decide (2 ^ 63 ≤ n), n % 2 ^ 52, -1074, false⟩
      else ⟨decide (2 ^ 63 ≤ n), n % 2 ^ 52 + 2 ^ 52, (n / 2 ^ 52 % 2 ^ 11 : Nat) - 1075,
        n % 2 ^ 52 = 0 && n / 2 ^ 52 % 2 ^ 11 ≠ 1⟩ := by
  have hs : n % 2 ^ 63 / 2 ^ 52 = n / 2 ^ 52 % 2 ^ 11 := by omega
  have hl : n % 2 ^ 63 % 2 ^ 52 = n % 2 ^ 52 := by omega
  rw [ofWord, ofFields_eq, hs, hl]
  split
  · rfl
  · simp only [mk.injEq, true_and, and_true]
    omega

theorem negative_ofWord (n : Nat) : (ofWord n).negative = decide (2 ^ 63 ≤ n) := by
  rw [ofWord_eq]
  split <;> rfl

theorem significand_ofWord (n : Nat) :
    (ofWord n).significand =
      n % 2 ^ 52 + if n / 2 ^ 52 % 2 ^ 11 = 0 then 0 else 2 ^ 52 := by
  rw [ofWord_eq]
  split <;> rfl

theorem significand_ofWord_lt (n : Nat) : (ofWord n).significand < 2 ^ 53 := by
  have hl : n % 2 ^ 52 < 2 ^ 52 := Nat.mod_lt _ (by omega)
  rw [significand_ofWord]
  split <;> omega

theorem exponent_ofWord (n : Nat) :
    (ofWord n).exponent = max ((n / 2 ^ 52 % 2 ^ 11 : Nat) : Int) 1 - 1075 := by
  rw [ofWord_eq]
  split
  · rename_i hz
    rw [hz]
    rfl
  · rw [max_eq_left (by omega)]

end Binary

-- The numbers of the format apart from zero: 53 binary digits, fewer only at the least exponent.
structure Reduced (m : Nat) (e : Int) : Prop where
  pos : 0 < m
  lt : m < 2 ^ 53
  least_le : -1074 ≤ e
  full : 2 ^ 52 ≤ m ∨ e = -1074

theorem reduced_ofWord (n : Nat) (hn : (Binary.ofWord n).significand ≠ 0) :
    Reduced (Binary.ofWord n).significand (Binary.ofWord n).exponent := by
  have hlt := Binary.significand_ofWord_lt n
  rw [Binary.significand_ofWord] at hn hlt ⊢
  rw [Binary.exponent_ofWord]
  constructor
  · omega
  · exact hlt
  · omega
  · split <;> omega

section Words

variable (b : BitVec 64)

theorem toNat_unpackMantissa :
    (@unpackMantissa Format.binary64 b).toNat = b.toNat % 2 ^ 52 := by
  simp [unpackMantissa, BitVec.extractLsb, BitVec.extractLsb']

theorem toNat_unpackExponent :
    (@unpackExponent Format.binary64 b).toNat = b.toNat / 2 ^ 52 % 2 ^ 11 := by
  simp [unpackExponent, BitVec.extractLsb, BitVec.extractLsb', Nat.shiftRight_eq_div_pow]

theorem toNat_unpackSign :
    (@unpackSign Format.binary64 b).toNat = b.toNat / 2 ^ 63 := by
  have hb := b.isLt
  simp only [unpackSign, BitVec.extractLsb, BitVec.extractLsb', BitVec.toNat_cast,
    BitVec.toNat_ofNat, Nat.shiftRight_eq_div_pow]
  omega

theorem ofBitVec_unpackSign :
    Sign.ofBitVec (@unpackSign Format.binary64 b) = (Binary.ofWord b.toNat).sign := by
  have hb := b.isLt
  have hz : @unpackSign Format.binary64 b = 0#1 ↔ ¬ 2 ^ 63 ≤ b.toNat := by
    rw [← BitVec.toNat_inj, toNat_unpackSign, BitVec.toNat_ofNat]
    omega
  unfold Sign.ofBitVec Binary.sign
  rw [Binary.negative_ofWord]
  by_cases hn : 2 ^ 63 ≤ b.toNat
  · rw [if_neg (fun h => hz.mp h hn), if_pos (decide_eq_true hn)]
  · rw [if_pos (hz.mpr hn), if_neg (by simpa using hn)]

-- The two readings of a finite word agree.
theorem unpack_word (hb : b.toNat / 2 ^ 52 % 2 ^ 11 ≠ 2047) :
    UnpackedFloat.unpack Format.binary64 b = (Binary.ofWord b.toNat).unpacked := by
  have hm := toNat_unpackMantissa b
  have he := toNat_unpackExponent b
  have hsig := Binary.significand_ofWord b.toNat
  have hexp := Binary.exponent_ofWord b.toNat
  have hinf : @unpackExponent Format.binary64 b ≠ -1#11 := by
    intro h
    rw [h] at he
    exact hb he.symm
  unfold UnpackedFloat.unpack
  dsimp only
  rw [if_neg hinf, ofBitVec_unpackSign]
  by_cases hz : b.toNat / 2 ^ 52 % 2 ^ 11 = 0
  · have hv : @unpackExponent Format.binary64 b = 0#11 :=
      BitVec.eq_of_toNat_eq (he.trans hz)
    rw [if_pos hz, Nat.add_zero] at hsig
    rw [if_pos hv]
    by_cases hl : b.toNat % 2 ^ 52 = 0
    · have hv : @unpackMantissa Format.binary64 b = 0#52 :=
        BitVec.eq_of_toNat_eq (hm.trans hl)
      rw [dif_pos hv, Binary.unpacked, dif_pos (hsig.trans hl)]
    · rw [dif_neg (fun h => hl (hm.symm.trans (congrArg BitVec.toNat h)))]
      refine (Binary.unpacked_eq_finite _ _ _ _ _ rfl (hsig.trans hm.symm) ?_).symm
      rw [hexp, he, hz]
      rfl
  · have hv : @unpackExponent Format.binary64 b ≠ 0#11 :=
      fun h => hz (he.symm.trans (congrArg BitVec.toNat h))
    rw [if_neg hz] at hsig
    rw [if_neg hv]
    refine (Binary.unpacked_eq_finite _ _ _ _ _ rfl ?_ ?_).symm
    · rw [hsig, BitVec.toNat_append,
        ← Nat.shiftLeft_add_eq_or_of_lt (@unpackMantissa Format.binary64 b).isLt, hm]
      simp [Nat.shiftLeft_eq, Nat.add_comm]
    · rw [hexp, he, max_eq_left (by omega)]
      rfl

end Words

end TimingDiagram
