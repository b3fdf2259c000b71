namespace TimingDiagram

-- A finite binary number, `(-1)^negative * significand * 2^exponent`. `lowGap` says that the
-- neighbour towards zero is half as far away as the one above: the significand is the least of
-- its binade and the exponent is not the least of the format.
structure Binary where
  negative : Bool
  significand : Nat
  exponent : Int
  lowGap : Bool
deriving Repr, DecidableEq

namespace Binary

-- Powers of naturals are written `Nat.pow`, which is the same function whatever algebra is in scope.

-- The fields of an interchange format with `fraction` stored significand bits and the given
-- least exponent, read off the bits below the sign.
def ofFields (negative : Bool) (fraction : Nat) (least : Int) (bits : Nat) : Binary :=
  let stored := bits / Nat.pow 2 fraction
  let low := bits % Nat.pow 2 fraction
  if stored = 0 then ⟨negative, low, least, false⟩
  else ⟨negative, low + Nat.pow 2 fraction, least + (stored - 1 : Nat), low = 0 && stored ≠ 1⟩

-- The value of a finite double; of an infinity or a NaN the answer has no meaning.
def ofFloat (x : Float) : Binary :=
  let bits := x.toBits.toNat
  ofFields (Nat.pow 2 63 ≤ bits) 52 (-1074) (bits % Nat.pow 2 63)

-- The value of a finite single; of an infinity or a NaN the answer has no meaning.
def ofFloat32 (x : Float32) : Binary :=
  let bits := x.toBits.toNat
  ofFields (Nat.pow 2 31 ≤ bits) 23 (-149) (bits % Nat.pow 2 31)

-- The integer part of the magnitude.
def wholePart (b : Binary) : Nat :=
  match b.exponent with
  | .ofNat e => b.significand * Nat.pow 2 e
  | .negSucc e => b.significand / Nat.pow 2 (e + 1)

-- The integer nearest to `num / den`, an exact half going to the even neighbour.
def divHalfEven (num den : Nat) : Nat :=
  let q := num / den
  let r := 2 * (num % den)
  if den < r || r = den && q % 2 = 1 then q + 1 else q

end Binary

-- A double with its fraction bits cleared: rounding towards zero that keeps the sign of zero,
-- infinities and NaN.
def truncate (x : Float) : Float :=
  let bits := x.toBits.toNat
  let stored := bits / Nat.pow 2 52 % Nat.pow 2 11
  if stored < 1023 then Float.ofBits (.ofNat (bits / Nat.pow 2 63 * Nat.pow 2 63))
  else if 1075 ≤ stored then x
  else
    let unit := Nat.pow 2 (1075 - stored)
    Float.ofBits (.ofNat (bits / unit * unit))

def ceiling (x : Float) : Float :=
  let t := truncate x
  if t < x then t + 1.0 else t

def floor (x : Float) : Float :=
  let t := truncate x
  if x < t then t - 1.0 else t

-- The integer part of a finite double.
def wholePart (x : Float) : Int :=
  let b := Binary.ofFloat x
  if b.negative then -(b.wholePart : Int) else b.wholePart

-- The nearest whole number, an exact half going to the even neighbour; the sign of zero is kept.
def roundHalfEven (x : Float) : Float :=
  let t := truncate x
  let rest := (x - t).abs
  if 0.5 < rest || rest == 0.5 && wholePart t % 2 ≠ 0 then
    if x < 0.0 then t - 1.0 else t + 1.0
  else t

-- The integer part, clamped to the range of a 64-bit word; NaN counts as 0.
def saturate (x : Float) : Int64 :=
  if x.isNaN then 0
  else if 9223372036854775808.0 ≤ x then Int64.maxValue
  else if x < -9223372036854775808.0 then Int64.minValue
  else Int64.ofInt (wholePart x)

-- The largest whole number that is at most `cap` and at most `x`; 0 when there is none.
def countUpTo (cap : Nat) (x : Float) : Nat :=
  if x.isNaN || x < 1.0 then 0
  else if x.isInf then cap
  else min cap (wholePart x).toNat

-- The single nearest to a double, an exact half going to the even significand. The kept
-- significand is counted in units of the larger of the least exponent and the one that leaves
-- 24 bits; a carry out of it runs into the exponent field, and past the last exponent lies
-- infinity.
def narrow (x : Float) : Float32 :=
  let sign := if Nat.pow 2 63 ≤ x.toBits.toNat then Nat.pow 2 31 else 0
  if x.isNaN then Float32.ofBits 0x7fc00000
  else if x.isInf then Float32.ofBits (.ofNat (sign + 0x7f800000))
  else
    let b := Binary.ofFloat x
    let unit := max (-149 : Int) (b.exponent + b.significand.log2 - 23)
    let kept :=
      match unit - b.exponent with
      | .ofNat shift => Binary.divHalfEven b.significand (Nat.pow 2 shift)
      | .negSucc shift => b.significand * Nat.pow 2 (shift + 1)
    Float32.ofBits (.ofNat (sign + min 0x7f800000 ((unit + 149).toNat * Nat.pow 2 23 + kept)))

end TimingDiagram
