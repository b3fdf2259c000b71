import TimingDiagram.Number.Binary

namespace TimingDiagram

-- The arithmetic that positions along a lane are computed with. Drawings use doubles; exact
-- rationals follow the same formulas without rounding.
class Scalar (α : Type) extends Add α, Sub α, Mul α, Neg α, OfScientific α where
  ofNat : Nat → α
  -- Rounding towards zero and rounding up.
  truncated : α → α
  roundedUp : α → α
  -- The largest whole number that is at most `cap` and at most the given one, 0 if there is none.
  upTo : Nat → α → Nat
  same : α → α → Bool

instance : Scalar Float where
  ofNat := Float.ofNat
  truncated := truncate
  roundedUp := ceiling
  upTo := countUpTo
  same x y := x == y

instance : Scalar Rat where
  ofNat n := (n : Rat)
  truncated x := if x < 0 then (x.ceil : Rat) else (x.floor : Rat)
  roundedUp x := (x.ceil : Rat)
  upTo cap x := min cap x.floor.toNat
  same x y := x == y

end TimingDiagram
