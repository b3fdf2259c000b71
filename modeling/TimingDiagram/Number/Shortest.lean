import TimingDiagram.Number.Binary

namespace TimingDiagram

-- The decimal number `digits * 10^exponent`.
structure Decimal where
  digits : Nat
  exponent : Int
deriving Repr, DecidableEq

-- Which of two equally near numbers on a decimal grid is taken: the upper one, or the one whose
-- last digit is even.
inductive Tie where
  | upper | even
deriving DecidableEq, Repr

-- Whether the lower one of two equally near neighbours is taken.
def Tie.takesLower (tie : Tie) (below : Nat) : Bool :=
  match tie with
  | .upper => false
  | .even => below % 2 == 0

namespace Binary

-- The numbers that round to a binary number reach from half the gap below it to half the gap
-- above it; an even significand takes both ends. All four are counted in quarters of a unit in
-- the last place.
def quarters (b : Binary) : Nat := 4 * b.significand

def lowEnd (b : Binary) : Nat := b.quarters - (if b.lowGap then 1 else 2)

def highEnd (b : Binary) : Nat := b.quarters + 2

def inside (b : Binary) (num den : Nat) : Bool :=
  if b.significand % 2 = 0 then b.lowEnd * den ≤ num && num ≤ b.highEnd * den
  else b.lowEnd * den < num && num < b.highEnd * den

-- `10^grid` as a quotient of naturals, in quarters of a unit in the last place.
def gridUnit (b : Binary) (grid : Int) : Nat × Nat :=
  let scale := b.exponent - 2
  (Nat.pow 10 grid.toNat * Nat.pow 2 (-scale).toNat,
    Nat.pow 2 scale.toNat * Nat.pow 10 (-grid).toNat)

-- The multiple of `10^grid` nearest to the number among those that round to it. Only the two
-- neighbours of the number need a look: if any multiple rounds to it then so does a neighbour.
def onGrid (tie : Tie) (b : Binary) (grid : Int) : Option Nat :=
  let (num, den) := b.gridUnit grid
  let below := b.quarters * den / num
  let above := below + 1
  let belowFits := 0 < below && b.inside (below * num) den
  let aboveFits := b.inside (above * num) den
  match belowFits, aboveFits with
  | true, true =>
    let down := b.quarters * den - below * num
    let up := above * num - b.quarters * den
    if down < up || down = up && tie.takesLower below then some below else some above
  | true, false => some below
  | false, true => some above
  | false, false => none

-- Goes from a coarse grid to finer ones; the first hit has the fewest digits.
def search (tie : Tie) (b : Binary) : Nat → Int → Decimal
  | 0, grid => ⟨b.quarters * (b.gridUnit grid).2 / (b.gridUnit grid).1, grid⟩
  | fuel + 1, grid =>
    match b.onGrid tie grid with
    | some d => ⟨d, grid⟩
    | none => search tie b fuel (grid - 1)

-- The decimal number with the fewest digits that rounds to a nonzero binary number, and the
-- nearest of those. A whole number whose unit in the last place is at most 1 is its own answer,
-- since no other whole number is half a unit away. Otherwise seventeen digits always suffice for
-- a double, and the starting grid lies at most two digits above the first one.
def shortest (tie : Tie) (b : Binary) : Decimal :=
  if b.exponent ≤ 0 && b.significand % Nat.pow 2 (-b.exponent).toNat = 0 then ⟨b.wholePart, 0⟩
  else search tie b 24 ((b.significand.log2 + 1 + b.exponent) * 30103 / 100000 + 1)

end Binary

end TimingDiagram
