import TimingDiagram.Signal.Tree
import TimingDiagram.Diagram.Connector
import TimingDiagram.Markup.Element
import TimingDiagram.Number.Checked

namespace TimingDiagram

-- How the marks of an axis are labelled: by consecutive whole numbers, by multiples of a step
-- with a fixed number of places, or by a list that may end early.
inductive Ticks where
  | sequence (offset : Int64)
  | stepped (offset step : Float) (places : Nat)
  | literal (labels : List String)
deriving Repr

-- The label of a mark, counted from 0. The numbers of a sequence are words.
def Ticks.label (ticks : Ticks) (i : Nat) : Except Overflow (Option String) :=
  match ticks with
  | .sequence offset => (addSigned (Int64.ofNat i) offset).map fun n => some (toString n.toInt)
  | .stepped offset step places =>
    .ok (some (fixedText places (step * Float.ofNat i + step * offset)))
  | .literal labels => .ok labels[i]?

inductive Caption where
  | plain (text : String)
  | rich (markup : Element)
deriving Repr

-- What is written above or below the lanes: a caption, labels on the cycle marks (`tick`) and
-- labels between them (`tock`).
structure Axis where
  text : Option Caption := none
  tick : Option Ticks := none
  tock : Option Ticks := none
deriving Repr

def Axis.hasTicks (a : Axis) : Bool := a.tick.isSome || a.tock.isSome

-- A timing diagram. `hscale` is the number of cells drawn for each half cycle.
structure Diagram where
  signal : Group
  hscale : Nat := 1
  skin : String := "default"
  head : Option Axis := none
  foot : Option Axis := none
  edges : List Edge := []
deriving Repr

namespace Diagram

def maxHscale : Nat := 100

-- A scale outside of the range counts as the nearest one inside.
def withHscale (d : Diagram) (hscale : Nat) : Diagram :=
  { d with hscale := max 1 (min hscale maxHscale) }

end Diagram

end TimingDiagram
