import Mathlib

namespace TimingDiagram

open Float.Model (UnpackedFloat Format)
open Float.Model.UnpackedFloat

section Words

variable (s : Sign) (e : BitVec 8) (m : BitVec 23)

theorem toBitVec_ofBitVec (b : BitVec 1) : (Sign.ofBitVec b).toBitVec = b := by
  revert b
  decide

-- The three fields of a word make it up.
theorem packComponents_unpack (b : BitVec Format.binary32.numBits) :
    packComponents Format.binary32 (.ofBitVec (unpackSign b)) (unpackExponent b)
      (unpackMantissa b) = b := by
  rw [packComponents, toBitVec_ofBitVec]
  ext i hi
  simp only [unpackSign, unpackExponent, unpackMantissa, BitVec.getElem_append]
  split_ifs with hlow hmiddle
  · simp [BitVec.getLsbD_eq_getElem hi]
  · have hplace : 23 + (i - 23) = i := by
      change ¬ i < 23 at hlow
      omega
    simp [hplace, BitVec.getLsbD_eq_getElem hi]
  · have hplace : i = 31 := by
      change ¬ i - 23 < 8 at hmiddle
      change i < 32 at hi
      omega
    subst hplace
    simp [BitVec.getLsbD_eq_getElem hi]

theorem pack_subnormal (hm : 0 < m.toNat) :
    UnpackedFloat.pack Format.binary32 (.finite s m.toNat (-149) hm) =
      packComponents Format.binary32 s 0 m := by
  have hlog : m.toNat.log2 + 1 ≠ Format.binary32.mantissaBits := by
    have hlt := (Nat.log2_lt hm.ne').mpr m.isLt
    change m.toNat.log2 + 1 ≠ 24
    omega
  rw [UnpackedFloat.pack]
  simp only [hlog]
  rw [if_neg (by decide), if_neg (by simp), BitVec.ofNat_toNat, BitVec.setWidth_eq]
  rfl

theorem toNat_append_one : (1#1 ++ m).toNat = 2 ^ 23 + m.toNat := by
  rw [BitVec.toNat_append, ← Nat.shiftLeft_add_eq_or_of_lt m.isLt, BitVec.toNat_ofNat]
  rfl

theorem pack_normal (hones : e ≠ -1#8) (hm : 0 < (1#1 ++ m).toNat) :
    UnpackedFloat.pack Format.binary32 (.finite s (1#1 ++ m).toNat (e.toNat - 150) hm) =
      packComponents Format.binary32 s e m := by
  have hlt := m.isLt
  have hlog : (1#1 ++ m).toNat.log2 + 1 = Format.binary32.mantissaBits := by
    have h : (1#1 ++ m).toNat.log2 = 23 := by
      rw [toNat_append_one, Nat.log2_eq_iff (by omega)]
      omega
    rw [h]
    rfl
  have hbiased : ((e.toNat - 150 : Int) + (Format.binary32.exponentBias : Int) +
      (Format.binary32.mantissaBitsWithoutImplicit : Int)).toNat = e.toNat := by
    change ((e.toNat - 150 : Int) + 127 + 23).toNat = _
    omega
  have hsmall : ¬ 2 ^ Format.binary32.exponentBits ≤ e.toNat + 1 := by
    have hne : e.toNat ≠ 255 := fun h => hones (BitVec.eq_of_toNat_eq h)
    have := e.isLt
    change ¬ 256 ≤ e.toNat + 1
    omega
  rw [UnpackedFloat.pack]
  simp only [hlog, hbiased]
  rw [if_neg hsmall, if_pos trivial, BitVec.ofNat_toNat, BitVec.setWidth_eq]
  congr 1
  apply BitVec.eq_of_toNat_eq
  rw [BitVec.toNat_ofNat, toNat_append_one]
  omega

-- Packing undoes taking apart.
theorem pack_unpack {b : BitVec Format.binary32.numBits} (hb : Format.binary32.Valid b) :
    UnpackedFloat.pack Format.binary32 (UnpackedFloat.unpack Format.binary32 b) = b := by
  have hfields := packComponents_unpack b
  unfold UnpackedFloat.unpack
  dsimp only
  split_ifs with hones hnone hzero hempty
  · rw [hones, hnone] at hfields
    exact hfields
  · exact (hb.eq_packedNaN hones hnone).symm
  · rw [hzero, hempty] at hfields
    exact hfields
  · rw [hzero] at hfields ⊢
    exact (pack_subnormal _ _ _).trans hfields
  · exact (pack_normal _ _ _ hones _).trans hfields

end Words

theorem sub_eq_add_neg_unpacked (f : Format) (u v : UnpackedFloat) :
    UnpackedFloat.sub f u v = UnpackedFloat.add f u v.neg := by
  cases u with
  | finite s m e hm =>
      cases v with
      | finite t n e' hn =>
          have hsigned : ∀ k : ℤ, (-t).apply k = -t.apply k := by
            intro k
            cases t with
            | positive => rfl
            | negative => exact (neg_neg k).symm
          simp only [UnpackedFloat.sub, UnpackedFloat.add, UnpackedFloat.neg, hsigned,
            sub_eq_add_neg]
      | notANumber | infinity | zero => rfl
  | notANumber | infinity | zero => cases v <;> rfl

-- Two numbers taken apart that are the same, where it does not matter which zero a zero is.
inductive Agree : UnpackedFloat → UnpackedFloat → Prop
  | same (u : UnpackedFloat) : Agree u u
  | zeros (s t : Sign) : Agree (.zero s) (.zero t)

namespace Agree

variable {u u' v v' w : UnpackedFloat} {f : Format}

theorem trans (h : Agree u v) (k : Agree v w) : Agree u w := by
  cases h with
  | same => exact k
  | zeros s t =>
      cases k with
      | same => exact .zeros s t
      | zeros t r => exact .zeros s r

-- It is enough to look at an operation where one of its arguments is a zero.
theorem map₂ {op : UnpackedFloat → UnpackedFloat → UnpackedFloat}
    (hleft : ∀ s t w, Agree (op (.zero s) w) (op (.zero t) w))
    (hright : ∀ s t w, Agree (op w (.zero s)) (op w (.zero t)))
    (hu : Agree u u') (hv : Agree v v') : Agree (op u v) (op u' v') := by
  have hfirst : Agree (op u v) (op u' v) := by
    cases hu with
    | same => exact .same _
    | zeros s t => exact hleft s t v
  have hsecond : Agree (op u' v) (op u' v') := by
    cases hv with
    | same => exact .same _
    | zeros s t => exact hright s t u'
  exact hfirst.trans hsecond

theorem add (hu : Agree u u') (hv : Agree v v') :
    Agree (UnpackedFloat.add f u v) (UnpackedFloat.add f u' v') := by
  refine map₂ ?_ ?_ hu hv
  · intro s t w
    cases w with
    | notANumber | infinity | finite => exact .same _
    | zero r => cases s <;> cases t <;> cases r <;> constructor
  · intro s t w
    cases w with
    | notANumber | infinity | finite => exact .same _
    | zero r => cases s <;> cases t <;> cases r <;> constructor

theorem neg (h : Agree u v) : Agree u.neg v.neg := by
  cases h with
  | same => exact .same _
  | zeros s t => exact .zeros _ _

theorem sub (hu : Agree u u') (hv : Agree v v') :
    Agree (UnpackedFloat.sub f u v) (UnpackedFloat.sub f u' v') := by
  rw [sub_eq_add_neg_unpacked, sub_eq_add_neg_unpacked]
  exact add hu hv.neg

theorem mul (hu : Agree u u') (hv : Agree v v') :
    Agree (UnpackedFloat.mul f u v) (UnpackedFloat.mul f u' v') := by
  refine map₂ ?_ ?_ hu hv
  · intro s t w
    cases w with
    | notANumber | infinity => exact .same _
    | zero | finite => exact .zeros _ _
  · intro s t w
    cases w with
    | notANumber | infinity => exact .same _
    | zero | finite => exact .zeros _ _

-- Only the dividend may be another zero.
theorem div (hu : Agree u u') (v : UnpackedFloat) :
    Agree (UnpackedFloat.div f u v) (UnpackedFloat.div f u' v) := by
  cases hu with
  | same => exact .same _
  | zeros s t =>
      cases v with
      | notANumber | zero => exact .same _
      | infinity | finite => exact .zeros _ _

theorem compare_eq (hu : Agree u u') (hv : Agree v v') : u.compare v = u'.compare v' := by
  cases hu with
  | same =>
      cases hv with
      | same => rfl
      | zeros s t => cases u with
        | infinity r => cases r <;> rfl
        | finite r m e hm => cases r <;> rfl
        | _ => rfl
  | zeros s t =>
      cases hv with
      | same => cases v with
        | infinity r => cases r <;> rfl
        | finite r m e hm => cases r <;> rfl
        | _ => rfl
      | zeros => rfl

-- Equal numbers agree.
theorem of_compare_eq (h : u.compare v = some .eq) : Agree u v := by
  cases u with
  | notANumber => cases v <;> cases h
  | infinity s =>
      cases v with
      | infinity t => cases s <;> cases t <;> first | exact .same _ | cases h
      | notANumber | zero | finite => cases s <;> cases h
  | zero s =>
      cases v with
      | zero t => exact .zeros s t
      | notANumber => cases h
      | infinity t | finite t => cases t <;> cases h
  | finite s m e hm =>
      cases v with
      | notANumber => cases h
      | infinity t => cases s <;> cases t <;> cases h
      | zero t => cases s <;> cases h
      | finite t n e' hn =>
          have hfields : s = t ∧ (compare e e').then (compare m n) = .eq := by
            cases s <;> cases t
            · exact ⟨rfl, Ordering.swap_eq_eq.mp (Option.some.inj h)⟩
            · cases h
            · cases h
            · exact ⟨rfl, Option.some.inj h⟩
          obtain ⟨rfl, horder⟩ := hfields
          rw [Ordering.then_eq_eq, compare_eq_iff_eq, compare_eq_iff_eq] at horder
          obtain ⟨rfl, rfl⟩ := horder
          exact .same _

-- Next to anything but a negative zero the sign of an added zero is lost.
theorem add_left_eq (hw : w ≠ .zero .negative) (h : Agree u v) :
    UnpackedFloat.add f w u = UnpackedFloat.add f w v := by
  cases h with
  | same => rfl
  | zeros s t =>
      cases w with
      | zero r =>
          cases r with
          | negative => exact absurd rfl hw
          | positive => cases s <;> cases t <;> rfl
      | notANumber | infinity | finite => rfl

theorem repack (h : Agree u v) :
    Agree (UnpackedFloat.unpack Format.binary32 (UnpackedFloat.pack Format.binary32 u))
      (UnpackedFloat.unpack Format.binary32 (UnpackedFloat.pack Format.binary32 v)) := by
  cases h with
  | same => exact .same _
  | zeros s t => cases s <;> cases t <;> exact .zeros _ _

end Agree

-- Two singles that are the same, or both zero.
def Alike (x y : Float32) : Prop := Agree x.toModel.unpack y.toModel.unpack

theorem eq_of_unpack {x y : Float32} (h : x.toModel.unpack = y.toModel.unpack) : x = y := by
  have hx := pack_unpack x.toModel.valid
  have hy := pack_unpack y.toModel.valid
  have hbits : x.toModel.toBits = y.toModel.toBits :=
    UInt32.toBitVec_inj.mp (hx.symm.trans ((congrArg _ h).trans hy))
  obtain ⟨⟨_, _⟩⟩ := x
  obtain ⟨⟨_, _⟩⟩ := y
  cases hbits
  rfl

theorem alike_of_beq {x y : Float32} (h : (x == y) = true) : Alike x y := by
  change (x.toModel.unpack.compare y.toModel.unpack == some .eq) = true at h
  exact Agree.of_compare_eq (eq_of_beq h)

theorem unpack_zero_cases {x : Float32} {s : Sign} (h : x.toModel.unpack = .zero s) :
    s = .positive ∧ x = 0.0 ∨ s = .negative ∧ x = -0.0 := by
  cases s with
  | positive => exact Or.inl ⟨rfl, eq_of_unpack h⟩
  | negative => exact Or.inr ⟨rfl, eq_of_unpack h⟩

namespace Alike

variable {x x' y y' : Float32}

theorem refl (x : Float32) : Alike x x := .same _

theorem add (hx : Alike x x') (hy : Alike y y') : Alike (x + y) (x' + y') :=
  (Agree.add hx hy).repack

theorem sub (hx : Alike x x') (hy : Alike y y') : Alike (x - y) (x' - y') :=
  (Agree.sub hx hy).repack

theorem mul (hx : Alike x x') (hy : Alike y y') : Alike (x * y) (x' * y') :=
  (Agree.mul hx hy).repack

theorem div (hx : Alike x x') (y : Float32) : Alike (x / y) (x' / y) :=
  (Agree.div hx y.toModel.unpack).repack

theorem lt_iff (hx : Alike x x') (hy : Alike y y') : x < y ↔ x' < y' := by
  have hcompare := Agree.compare_eq hx hy
  change decide (x.toModel < y.toModel) = true ↔ decide (x'.toModel < y'.toModel) = true
  rw [decide_eq_true_iff, decide_eq_true_iff]
  change (x.toModel.unpack.compare y.toModel.unpack == some .lt) = true ↔
    (x'.toModel.unpack.compare y'.toModel.unpack == some .lt) = true
  rw [hcompare]

theorem le_iff (hx : Alike x x') (hy : Alike y y') : x ≤ y ↔ x' ≤ y' := by
  have hcompare := Agree.compare_eq hx hy
  change decide (x.toModel ≤ y.toModel) = true ↔ decide (x'.toModel ≤ y'.toModel) = true
  rw [decide_eq_true_iff, decide_eq_true_iff]
  change (x.toModel.unpack.compare y.toModel.unpack).any (·.isLE) = true ↔
    (x'.toModel.unpack.compare y'.toModel.unpack).any (·.isLE) = true
  rw [hcompare]

theorem eq_or_opposite (h : Alike x y) :
    x = y ∨ x = 0.0 ∧ y = -0.0 ∨ x = -0.0 ∧ y = 0.0 := by
  unfold Alike at h
  generalize hu : x.toModel.unpack = u at h
  generalize hv : y.toModel.unpack = v at h
  cases h with
  | same => exact Or.inl (eq_of_unpack (hu.trans hv.symm))
  | zeros s t =>
      rcases unpack_zero_cases hu with ⟨-, rfl⟩ | ⟨-, rfl⟩ <;>
        rcases unpack_zero_cases hv with ⟨-, rfl⟩ | ⟨-, rfl⟩
      · exact Or.inl rfl
      · exact Or.inr (Or.inl ⟨rfl, rfl⟩)
      · exact Or.inr (Or.inr ⟨rfl, rfl⟩)
      · exact Or.inl rfl

end Alike

end TimingDiagram
