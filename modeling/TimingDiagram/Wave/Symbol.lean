import TimingDiagram.Wave.Brick

namespace TimingDiagram

-- What a character of a wave stands for: a plain level, a bus value, a clock or a level entered
-- through a sharp edge.
inductive Symbol where
  | level (l : Level)
  | data (d : DataIndex)
  | clock (e : ClockEdge)
  | sharp (e : ClockEdge)
deriving DecidableEq, Repr

namespace Symbol

-- Digits from 2 to 9 are bus values.
def ofDigit (c : Char) : Symbol :=
  match DataIndex.ofNat? (c.toNat - '0'.toNat) with
  | some d => .data d
  | none => .level .unknown

-- Every character stands for something; one without a meaning of its own is unknown.
def ofChar (c : Char) : Symbol :=
  match c with
  | '0' => .level .low
  | '1' => .level .high
  | 'z' => .level .highZ
  | 'd' => .level .pullDown
  | 'u' => .level .pullUp
  | '=' => .data .default
  | 'p' => .clock .rising
  | 'n' => .clock .falling
  | 'P' => .clock .risingMarked
  | 'N' => .clock .fallingMarked
  | 'h' => .sharp .rising
  | 'l' => .sharp .falling
  | 'H' => .sharp .risingMarked
  | 'L' => .sharp .fallingMarked
  | c => ofDigit c

-- The level once the edge of a symbol has passed.
def settledLevel : Symbol → Level
  | .level l => l
  | .data _ => .value
  | .clock e => e.settlesAt
  | .sharp e => e.settlesAt

-- The level at the end of a cycle; a clock ends opposite to its edge.
def trailingLevel : Symbol → Level
  | .clock e => e.clockEndsAt
  | s => s.settledLevel

def dataIndex : Symbol → Option DataIndex
  | .data d => some d
  | _ => none

def steady (s : Symbol) : Brick := .steady s.settledLevel s.dataIndex

def isClock : Symbol → Bool
  | .clock _ => true
  | _ => false

-- Two neighbours that meet on one level draw no edge between them: a sharp level before a clock
-- that starts on it, and a clock before a sharp level that it ended on. A marked edge on the
-- right is drawn all the same.
def joined : Symbol → Symbol → Option Brick
  | .sharp before, .clock .rising => if before.rises then some (.steady .high none) else none
  | .sharp before, .clock .falling => if before.rises then none else some (.steady .low none)
  | .clock before, .sharp .rising => if before.rises then none else some (.steady .high none)
  | .clock before, .sharp .falling => if before.rises then some (.steady .low none) else none
  | _, _ => none

end Symbol

end TimingDiagram
