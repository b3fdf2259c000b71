import TimingDiagram.Number.Binary

namespace TimingDiagram

-- The double nearest to `digits * 10^exponent`.
def nearest (negative : Bool) (digits : Nat) (exponent : Int) : Float :=
  let magnitude : Float :=
    match exponent with
    | .ofNat e => Float.ofScientific digits false e
    | .negSucc e => Float.ofScientific digits true (e + 1)
  if negative then -magnitude else magnitude

-- The value of a digit string.
def digitsValue (cs : List Char) : Nat :=
  cs.foldl (fun n c => 10 * n + (c.toNat - '0'.toNat)) 0

-- Takes an optional sign off the front.
def takeSign : List Char → Bool × List Char
  | '-' :: cs => (true, cs)
  | '+' :: cs => (false, cs)
  | cs => (false, cs)

-- The exponent part of a number that fills the rest of the text: nothing, or a mark, an optional
-- sign and at least one digit.
def readExponent : List Char → Option Int
  | [] => some 0
  | c :: cs =>
    if c = 'e' || c = 'E' then
      let (negative, digits) := takeSign cs
      if digits.isEmpty || !digits.all Char.isDigit then none
      else if negative then some (-(digitsValue digits : Int)) else some (digitsValue digits)
    else none

-- Digits with an optional point, at least one digit on either side of it, and an exponent.
def readDigits (negative : Bool) (cs : List Char) : Option Float :=
  let whole := cs.takeWhile Char.isDigit
  let rest := cs.dropWhile Char.isDigit
  let (fraction, rest) :=
    match rest with
    | '.' :: tail => (tail.takeWhile Char.isDigit, tail.dropWhile Char.isDigit)
    | _ => ([], rest)
  if whole.isEmpty && fraction.isEmpty then none
  else (readExponent rest).map fun e =>
    nearest negative (digitsValue (whole ++ fraction)) (e - fraction.length)

-- Reads a whole text as a number: a sign, then digits or one of the names of infinity and NaN in
-- any case. The nearest double is taken.
def readFloat? (text : String) : Option Float :=
  let (negative, cs) := takeSign text.toList
  let name := String.ofList (cs.map Char.toLower)
  if name = "inf" || name = "infinity" then
    some (Float.ofBits (if negative then 0xfff0000000000000 else 0x7ff0000000000000))
  else if name = "nan" then some (Float.ofBits 0x7ff8000000000000)
  else readDigits negative cs

end TimingDiagram
