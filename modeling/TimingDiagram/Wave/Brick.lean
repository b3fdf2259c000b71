namespace TimingDiagram

-- A logic level: low, high, unknown, high impedance, pulled down, pulled up, or a bus value.
inductive Level where
  | low | high | unknown | highZ | pullDown | pullUp | value
deriving DecidableEq, Repr

def Level.code : Level → Char
  | .low => '0'
  | .high => '1'
  | .unknown => 'x'
  | .highZ => 'z'
  | .pullDown => 'd'
  | .pullUp => 'u'
  | .value => 'v'

def Level.all : List Level := [.low, .high, .unknown, .highZ, .pullDown, .pullUp, .value]

def Level.ofCode? (c : Char) : Option Level := Level.all.find? fun l => l.code == c

-- The colour of a bus value, 2 to 9.
structure DataIndex where
  val : Nat
  two_le : 2 ≤ val
  le_nine : val ≤ 9
deriving DecidableEq, Repr

namespace DataIndex

def ofNat? (n : Nat) : Option DataIndex :=
  if h : 2 ≤ n ∧ n ≤ 9 then some ⟨n, h.1, h.2⟩ else none

-- The colour that `=` stands for.
def default : DataIndex := ⟨2, by decide, by decide⟩

def name (d : DataIndex) : String := "-" ++ toString d.val

end DataIndex

-- A sharp edge. The marked forms carry an arrow.
inductive ClockEdge where
  | rising | falling | risingMarked | fallingMarked
deriving DecidableEq, Repr

namespace ClockEdge

def rises : ClockEdge → Bool
  | .rising | .risingMarked => true
  | .falling | .fallingMarked => false

-- The level a lane holds once the edge has passed.
def settlesAt (e : ClockEdge) : Level := if e.rises then .high else .low

-- The level a clock that starts with this edge ends its cycle on.
def clockEndsAt (e : ClockEdge) : Level := if e.rises then .low else .high

-- The edge in the middle of a clock cycle.
def inverse (e : ClockEdge) : ClockEdge := if e.rises then .falling else .rising

def name : ClockEdge → String
  | .rising => "pclk"
  | .falling => "nclk"
  | .risingMarked => "Pclk"
  | .fallingMarked => "Nclk"

end ClockEdge

-- What is drawn for one half cycle: an edge, a level that stays, or a soft passage between two
-- levels. The glyph of a brick is found by its name.
inductive Brick where
  | edge (e : ClockEdge)
  | steady (level : Level) (data : Option DataIndex)
  | transition (source target : Level) (sourceData targetData : Option DataIndex)
deriving DecidableEq, Repr

namespace Brick

def dataName : Option DataIndex → String
  | none => ""
  | some d => d.name

def name : Brick → String
  | .edge e => e.name
  | .steady l d => String.ofList [l.code, l.code, l.code] ++ dataName d
  | .transition s t ds dt => String.ofList [s.code, 'm', t.code] ++ dataName ds ++ dataName dt

-- The level and bus value that a brick ends on.
def endLevel : Brick → Level
  | .edge e => e.settlesAt
  | .steady l _ => l
  | .transition _ t _ _ => t

def endData : Brick → Option DataIndex
  | .edge _ => none
  | .steady _ d => d
  | .transition _ _ _ d => d

-- The brick that prolongs another one.
def sustain (b : Brick) : Brick := .steady b.endLevel b.endData

-- The bus value under which a data label can stand.
def dataValue : Brick → Option DataIndex
  | .steady .value d => d
  | _ => none

end Brick

end TimingDiagram
