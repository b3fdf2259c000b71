import TimingDiagram.Number.Read
import TimingDiagram.Toml.Basic

namespace TimingDiagram.Toml

-- Digits with single underscores between them.
def isGrouped (isDigit : Char → Bool) : List Char → Bool
  | [] => false
  | [c] => isDigit c
  | c :: '_' :: rest => isDigit c && isGrouped isDigit rest
  | c :: rest => isDigit c && isGrouped isDigit rest

def ungroup (cs : List Char) : List Char := cs.filter (· ≠ '_')

-- Decimal digits without a zero in front of others.
def isWhole (cs : List Char) : Bool :=
  isGrouped Char.isDigit cs && ((ungroup cs).head? ≠ some '0' || cs.length == 1)

def digitValue (c : Char) : Nat :=
  if c.isDigit then c.toNat - '0'.toNat
  else if c.isLower then c.toNat - 'a'.toNat + 10
  else c.toNat - 'A'.toNat + 10

def isDigitOf (base : Nat) (c : Char) : Bool :=
  (c.isDigit || c.isAlpha) && digitValue c < base

-- The value of digits in a base.
def valueIn (base : Nat) (cs : List Char) : Nat :=
  cs.foldl (fun n c => base * n + digitValue c) 0

def integerIn? (base : Nat) (digits : List Char) : Option Int :=
  if isGrouped (isDigitOf base) digits then some (valueIn base (ungroup digits)) else none

def integer? (cs : List Char) : Option Int :=
  match cs with
  | '0' :: 'x' :: digits => integerIn? 16 digits
  | '0' :: 'o' :: digits => integerIn? 8 digits
  | '0' :: 'b' :: digits => integerIn? 2 digits
  | cs =>
    let (negative, digits) := takeSign cs
    if isWhole digits then
      let n : Int := valueIn 10 (ungroup digits)
      some (if negative then -n else n)
    else none

-- A fraction, an exponent or both fill the rest of a number.
def isFloatTail (cs : List Char) : Bool :=
  let isExponent (cs : List Char) : Bool :=
    match cs with
    | c :: rest => (c == 'e' || c == 'E') && isGrouped Char.isDigit (takeSign rest).2
    | [] => false
  match cs with
  | '.' :: rest =>
    let digits := rest.takeWhile fun c => c.isDigit || c == '_'
    let others := rest.dropWhile fun c => c.isDigit || c == '_'
    isGrouped Char.isDigit digits && (others.isEmpty || isExponent others)
  | cs => isExponent cs

-- A float. One that has digits must be finite.
def float? (cs : List Char) : Option Value :=
  let body := (takeSign cs).2
  let whole := body.takeWhile fun c => c.isDigit || c == '_'
  let tail := body.dropWhile fun c => c.isDigit || c == '_'
  if body = "inf".toList || body = "nan".toList then (readFloat? (String.ofList cs)).map .float
  else if isWhole whole && isFloatTail tail then
    (readFloat? (String.ofList (ungroup cs))).map fun x => if x.isInf then .tooLarge else .float x
  else none

-- Takes a number of exactly `width` digits off the front of a text.
def splitDigits? (width : Nat) (cs : List Char) : Option (Nat × List Char) :=
  let digits := cs.take width
  if digits.length = width && digits.all Char.isDigit then
    some (digitsValue digits, cs.drop width)
  else none

def isLeapYear (year : Nat) : Bool := year % 4 == 0 && (year % 100 != 0 || year % 400 == 0)

def daysInMonth (year month : Nat) : Nat :=
  match month with
  | 2 => if isLeapYear year then 29 else 28
  | 4 | 6 | 9 | 11 => 30
  | _ => 31

-- Takes a day of the calendar off the front of a text.
def dropDay? (cs : List Char) : Option (List Char) :=
  match splitDigits? 4 cs with
  | some (year, '-' :: cs) =>
    match splitDigits? 2 cs with
    | some (month, '-' :: cs) =>
      match splitDigits? 2 cs with
      | some (day, rest) =>
        if 1 ≤ month && month ≤ 12 && 1 ≤ day && day ≤ daysInMonth year month then some rest
        else none
      | none => none
    | _ => none
  | _ => none

-- Takes an hour and a minute off the front of a text.
def dropHour? (cs : List Char) : Option (List Char) :=
  match splitDigits? 2 cs with
  | some (hour, ':' :: cs) =>
    match splitDigits? 2 cs with
    | some (minute, rest) => if hour < 24 && minute < 60 then some rest else none
    | none => none
  | _ => none

-- Takes a time of the day off the front of a text. Seconds may be left out or have a fraction.
def dropTime? (cs : List Char) : Option (List Char) :=
  match dropHour? cs with
  | some (':' :: cs) =>
    match splitDigits? 2 cs with
    | some (second, rest) =>
      if 60 < second then none
      else
        match rest with
        | '.' :: rest =>
          if rest.head?.any Char.isDigit then some (rest.dropWhile Char.isDigit) else none
        | rest => some rest
    | none => none
  | rest => rest

-- What may follow a day and a time: nothing, or how far they are from the zero meridian's.
def isOffset (cs : List Char) : Bool :=
  match cs with
  | [] => true
  | '+' :: cs => dropHour? cs == some []
  | '-' :: cs => dropHour? cs == some []
  | cs => cs == ['Z'] || cs == ['z']

-- A day, a time, or both.
def isDate (cs : List Char) : Bool :=
  match dropDay? cs with
  | none => dropTime? cs == some []
  | some [] => true
  | some (c :: cs) => (c == 'T' || c == 't' || c == ' ') && (dropTime? cs).any isOffset

-- Integers fill at most 128 bits, with a sign or without one.
def ofInteger (n : Int) : Value :=
  if -Int.pow 2 127 ≤ n && n < Int.pow 2 128 then .integer n else .tooLarge

-- The value of a word that is no string.
def scalar? (cs : List Char) : Option Value :=
  if cs = "true".toList then some (.bool true)
  else if cs = "false".toList then some (.bool false)
  else if isDate cs then some (.date (String.ofList cs))
  else
    match integer? cs with
    | some n => some (ofInteger n)
    | none => float? cs

end TimingDiagram.Toml
