import TimingDiagram.Number.Shortest

namespace TimingDiagram

-- The decimal digits of a number, at least `width` of them.
def paddedDigits (width n : Nat) : String :=
  let text := toString n
  String.ofList (List.replicate (width - text.length) '0') ++ text

namespace Decimal

-- All digits written out around the point, without an exponent and without a point where no
-- fraction is left.
def plain (d : Decimal) : String :=
  match d.exponent with
  | .ofNat e => toString (d.digits * Nat.pow 10 e)
  | .negSucc e =>
    let unit := Nat.pow 10 (e + 1)
    toString (d.digits / unit) ++ "." ++ paddedDigits (e + 1) (d.digits % unit)

-- Drops the zeros at the end of the digits; `fuel` bounds how many.
def stripZeros : Nat → Decimal → Decimal
  | 0, d => d
  | fuel + 1, d =>
    if d.digits ≠ 0 && d.digits % 10 = 0 then stripZeros fuel ⟨d.digits / 10, d.exponent + 1⟩
    else d

-- One digit, the others after a point, and the power of ten with its sign.
def scientific (d : Decimal) : String :=
  let d := d.stripZeros (toString d.digits).length
  let text := toString d.digits
  let power := d.exponent + (text.length - 1 : Nat)
  let tail := text.toList.drop 1
  let mantissa := String.ofList (text.toList.take 1)
    ++ (if tail.isEmpty then "" else "." ++ String.ofList tail)
  mantissa ++ "e" ++ (if power < 0 then "-" else "+") ++ toString power.natAbs

-- The power of ten of the first digit.
def power (d : Decimal) : Int :=
  d.exponent + ((toString d.digits).length - 1 : Nat)

end Decimal

def signText (negative : Bool) : String := if negative then "-" else ""

-- The texts of the numbers that have no digits.
def infinityText (negative : Bool) : String := signText negative ++ "inf"

-- The fewest digits that read back, written out without an exponent, the upper of two equally near
-- choices; the sign of zero is kept.
def plainText (x : Float) : String :=
  if x.isNaN then "NaN"
  else
    let b := Binary.ofFloat x
    if x.isInf then infinityText b.negative
    else if b.significand = 0 then signText b.negative ++ "0"
    else signText b.negative ++ (b.shortest .upper).plain

def plainText32 (x : Float32) : String :=
  if x.isNaN then "NaN"
  else
    let b := Binary.ofFloat32 x
    if x.isInf then infinityText b.negative
    else if b.significand = 0 then signText b.negative ++ "0"
    else signText b.negative ++ (b.shortest .upper).plain

-- A coordinate is written like any number, but negative zero counts as zero.
def coordinateText (x : Float) : String :=
  if x == 0.0 then "0" else plainText x

-- Exactly `places` digits after the point, rounded from the exact value with a half going to the
-- even digit.
def fixedText (places : Nat) (x : Float) : String :=
  if x.isNaN then "NaN"
  else
    let b := Binary.ofFloat x
    if x.isInf then infinityText b.negative
    else
      let scaled := b.significand * Nat.pow 2 b.exponent.toNat * Nat.pow 10 places
      let n := Binary.divHalfEven scaled (Nat.pow 2 (-b.exponent).toNat)
      let unit := Nat.pow 10 places
      let fraction := if places = 0 then "" else "." ++ paddedDigits places (n % unit)
      signText b.negative ++ toString (n / unit) ++ fraction

end TimingDiagram
