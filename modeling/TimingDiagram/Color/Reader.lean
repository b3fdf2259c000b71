import TimingDiagram.Color.Basic
import TimingDiagram.Number.Read
import TimingDiagram.Text.Classes

namespace TimingDiagram.Color

-- What can be wrong with the text of a colour.
inductive Fault where
  | angleUnit | angle | component | name | space | form
  | noArguments | noClosing | noSpace | noComma | trailing | hexDigits
deriving DecidableEq, Repr

def Fault.message : Fault → String
  | .angleUnit => "unknown angle dimension"
  | .angle => "unknown angle"
  | .component => "unknown color component"
  | .name => "unknown color identifier"
  | .space => "unknown color space"
  | .form => "unknown color syntax"
  | .noArguments => "expected arguments"
  | .noClosing => "expected closing parenthesis"
  | .noSpace => "expected color space identifier"
  | .noComma => "expected comma"
  | .trailing => "expected end of string"
  | .hexDigits => "wrong number of hex digits"

structure ReadError where
  text : String
  fault : Fault
deriving DecidableEq, Repr

def ReadError.message (e : ReadError) : String :=
  "invalid color `" ++ e.text ++ "`: " ++ e.fault.message

-- A reader takes what it reads off the front of a text.
abbrev Reading := StateT (List Char) (Except Fault)

def isBlank (c : Char) : Bool := c == ' ' || c == '\t' || c == '\r' || c == '\n'

-- Passes over comments, and over blanks if they are asked for. A comment that is not closed gives
-- nothing.
def skipFrom (blanks inside : Bool) : List Char → Option (List Char)
  | [] => if inside then none else some []
  | [c] => if inside then none else if blanks && isBlank c then some [] else some [c]
  | c :: d :: rest =>
    if inside then
      if c = '*' && d = '/' then skipFrom blanks false rest else skipFrom blanks true (d :: rest)
    else if c = '/' && d = '*' then skipFrom blanks true rest
    else if blanks && isBlank c then skipFrom blanks false (d :: rest)
    else some (c :: d :: rest)

-- Passes over blanks and comments. Before a comment that is not closed it does nothing.
def skipBlanks : Reading Unit := modify fun cs => (skipFrom true false cs).getD cs

-- Takes a character off if it stands at the front.
def takeChar (c : Char) : Reading Bool := do
  match ← get with
  | d :: rest =>
    if d = c then
      set rest
      return true
    else return false
  | [] => return false

-- As `takeChar`, behind comments.
def takeMark (c : Char) : Reading Bool := do
  match skipFrom false false (← get) with
  | some (d :: rest) =>
    if d = c then
      set rest
      return true
    else return false
  | _ => return false

-- The exponent at the front of a text and what follows it. A mark without digits is none.
def splitExponent (cs : List Char) : Int × List Char :=
  match cs with
  | [] => (0, [])
  | c :: tail =>
    let (negative, rest) := takeSign tail
    let digits := rest.takeWhile Char.isDigit
    if (c = 'e' || c = 'E') && !digits.isEmpty then
      let n : Int := digitsValue digits
      (if negative then -n else n, rest.dropWhile Char.isDigit)
    else (0, cs)

-- The fraction at the front of a text and what follows it. A point without digits is none.
def splitFraction (cs : List Char) : List Char × List Char :=
  match cs with
  | '.' :: tail =>
    let digits := tail.takeWhile Char.isDigit
    if digits.isEmpty then ([], cs) else (digits, tail.dropWhile Char.isDigit)
  | _ => ([], cs)

-- Takes a number off the front of a text.
def splitNumber? (cs : List Char) : Option (Float × List Char) :=
  let (negative, cs) := takeSign cs
  let whole := cs.takeWhile Char.isDigit
  let (fraction, cs) := splitFraction (cs.dropWhile Char.isDigit)
  let (exponent, cs) := splitExponent cs
  if whole.isEmpty && fraction.isEmpty then none
  else some (nearest negative (digitsValue (whole ++ fraction)) (exponent - fraction.length), cs)

def isIdentStart (c : Char) : Bool := c.isAlpha || c == '_'

def isIdentRest (c : Char) : Bool := isIdentStart c || c == '-' || c.isDigit

-- Takes an identifier off the front of a text. It may start with one dash, but not with two.
def splitIdent? (cs : List Char) : Option (String × List Char) :=
  let body := match cs with
    | '-' :: rest => rest
    | _ => cs
  if body.head?.any isIdentStart then
    some (String.ofList (cs.takeWhile isIdentRest), cs.dropWhile isIdentRest)
  else none

-- Passes over comments. Before one that is not closed it does nothing.
def skipComments : Reading Unit := modify fun cs => (skipFrom false false cs).getD cs

-- An identifier in lower case. No comment may stand in front of it.
def takeIdent : Reading (Option String) := do
  match splitIdent? (← get) with
  | some (name, rest) =>
    set rest
    return some name.toLower
  | none => return none

inductive Token where
  | word (name : String)
  | number (x : Float)
  | percent (x : Float)
  | dimension (x : Float) (unit : String)
deriving Repr

-- A number, possibly with a percent sign or a unit right behind it, or a word.
def takeToken : Reading (Option Token) := do
  skipComments
  match splitNumber? (← get) with
  | some (x, rest) =>
    set rest
    if ← takeChar '%' then return some (.percent x)
    match ← takeIdent with
    | some unit => return some (.dimension x unit)
    | none => return some (.number x)
  | none => return (← takeIdent).map .word

-- A component, given as a number or in percent, each with a scale of its own.
def component (scale percentScale : Float) : Reading (Option Float) := do
  skipBlanks
  match ← takeToken with
  | some (.number x) => return some (x * scale)
  | some (.percent x) => return some (x * percentScale)
  | some (.word "none") => return none
  | _ => throw .component

-- How many degrees one unit of an angle has.
def degrees? : String → Option Float
  | "deg" => some 1.0
  | "rad" => some (180.0 / 3.141592653589793)
  | "grad" => some 0.9
  | "turn" => some 360.0
  | _ => none

def angle : Reading (Option Float) := do
  skipBlanks
  match ← takeToken with
  | some (.number x) => return some x
  | some (.word "none") => return none
  | some (.dimension x unit) =>
    match degrees? unit with
    | some scale => return some (x * scale)
    | none => throw .angleUnit
  | _ => throw .angle

-- A zero keeps its sign.
def clamp (low high x : Float) : Float := if x < low then low else if high < x then high else x

-- Zero for everything that is not above it, negative zero included.
def atLeastZero (x : Float) : Float := if 0.0 < x then x else 0.0

def openArguments : Reading Unit := do
  if !(← takeChar '(') then throw .noArguments

-- Between arguments there are commas everywhere or nowhere.
def separator (comma : Bool) : Reading Unit := do
  skipBlanks
  if comma then
    if !(← takeMark ',') then throw .noComma

-- The opacity stands behind one more comma, or behind a slash. Without one a colour is opaque.
def opacity (comma : Bool) : Reading (Option Float) := do
  skipBlanks
  if ← takeMark (if comma then ',' else '/') then
    return (← component 1.0 0.01).map (clamp 0.0 1.0)
  return some 1.0

def closeArguments : Reading Unit := do
  skipBlanks
  if !(← takeMark ')') then throw .noClosing

def components (x y z alpha : Option Float) : Components :=
  ⟨x.map narrow, y.map narrow, z.map narrow, alpha.map narrow⟩

-- The last arguments, which are the same for all functions.
def finish (space : ColorSpace) (ownFunction comma : Bool) (x y z : Option Float) :
    Reading Color := do
  let alpha ← opacity comma
  closeArguments
  return .inSpace space ownFunction (components x y z alpha)

def rgbComponent : Reading (Option Float) := do
  return (← component (1.0 / 255.0) 0.01).map (clamp 0.0 1.0)

def rgb : Reading Color := do
  openArguments
  let r ← rgbComponent
  skipBlanks
  let comma ← takeMark ','
  let g ← rgbComponent
  separator comma
  let b ← rgbComponent
  finish .srgb true comma r g b

-- `full` is the lightness of white, `percent` the part of an axis that one percent stands for.
def lab (space : ColorSpace) (full percent : Float) : Reading Color := do
  openArguments
  let l := (← component 1.0 (0.01 * full)).map (clamp 0.0 full)
  let a ← component 1.0 percent
  let b ← component 1.0 percent
  finish space true false l a b

def lch (space : ColorSpace) (full percent : Float) : Reading Color := do
  openArguments
  let l := (← component 1.0 (0.01 * full)).map (clamp 0.0 full)
  let c := (← component 1.0 percent).map atLeastZero
  let h ← angle
  finish space true false l c h

def hsl : Reading Color := do
  openArguments
  let h ← angle
  let comma ← takeMark ','
  let s := (← component 1.0 1.0).map atLeastZero
  separator comma
  let l ← component 1.0 1.0
  finish .hsl true comma h s l

def hwb : Reading Color := do
  openArguments
  let h ← angle
  let w ← component 1.0 1.0
  let b ← component 1.0 1.0
  finish .hwb true false h w b

-- The spaces that have no function of their own.
def space? : String → Option ColorSpace
  | "srgb" => some .srgb
  | "srgb-linear" => some .linearSrgb
  | "display-p3" => some .displayP3
  | "a98-rgb" => some .a98Rgb
  | "prophoto-rgb" => some .prophotoRgb
  | "rec2020" => some .rec2020
  | "xyz-d50" => some .xyzD50
  | "xyz" => some .xyzD65
  | "xyz-d65" => some .xyzD65
  | _ => none

def inNamedSpace : Reading Color := do
  openArguments
  skipBlanks
  match ← takeIdent with
  | none => throw .noSpace
  | some name =>
    match space? name with
    | none => throw .space
    | some space =>
      let x ← component 1.0 0.01
      let y ← component 1.0 0.01
      let z ← component 1.0 0.01
      finish space false false x y z

-- The colour that starts with a word: a function or a name.
def behindWord : String → Reading Color
  | "rgb" => rgb
  | "rgba" => rgb
  | "lab" => lab .lab 100.0 1.25
  | "lch" => lch .lch 100.0 1.25
  | "oklab" => lab .oklab 1.0 0.004
  | "oklch" => lch .oklch 1.0 0.004
  | "hsl" => hsl
  | "hsla" => hsl
  | "hwb" => hwb
  | "color" => inNamedSpace
  | name => if names.contains name then pure (.named name) else throw .name

def hexDigit? (c : Char) : Option Nat :=
  if c.isDigit then some (c.toNat - '0'.toNat)
  else if 'a' ≤ c && c ≤ 'f' then some (c.toNat - 'a'.toNat + 10)
  else if 'A' ≤ c && c ≤ 'F' then some (c.toNat - 'A'.toNat + 10)
  else none

-- One byte of a component as a part of the whole.
def byteComponent (n : Nat) : Option Float32 := some (Float32.ofNat n * (1.0 / 255.0))

def ofBytes (r g b alpha : Nat) : Color :=
  .inSpace .srgb true
    ⟨byteComponent r, byteComponent g, byteComponent b, byteComponent alpha⟩

-- The colour of three or four bytes, written with one or two digits each.
def ofHex? : List Nat → Option Color
  | [r, g, b] => some (ofBytes (17 * r) (17 * g) (17 * b) 255)
  | [r, g, b, a] => some (ofBytes (17 * r) (17 * g) (17 * b) (17 * a))
  | [r, r', g, g', b, b'] => some (ofBytes (16 * r + r') (16 * g + g') (16 * b + b') 255)
  | [r, r', g, g', b, b', a, a'] =>
    some (ofBytes (16 * r + r') (16 * g + g') (16 * b + b') (16 * a + a'))
  | _ => none

-- The digits at the front of a text, at most `most` of them, and what follows them.
def splitHex : Nat → List Char → List Nat × List Char
  | 0, cs => ([], cs)
  | _, [] => ([], [])
  | most + 1, c :: rest =>
    match hexDigit? c with
    | some d =>
      let (digits, others) := splitHex most rest
      (d :: digits, others)
    | none => ([], c :: rest)

def hex : Reading Color := do
  let (digits, rest) := splitHex 8 (← get)
  match ofHex? digits with
  | some c =>
    set rest
    return c
  | none => throw .hexDigits

def read : Reading Color := do
  if ← takeChar '#' then hex
  else
    match ← takeIdent with
    | some name => behindWord name
    | none => throw .form

-- Reads a whole text, with blanks around it, as a colour.
def ofText? (text : String) : Except ReadError Color :=
  match read.run (Text.trimChars text.toList) with
  | .ok (c, []) => .ok c
  | .ok _ => .error ⟨text, .trailing⟩
  | .error fault => .error ⟨text, fault⟩

end TimingDiagram.Color
