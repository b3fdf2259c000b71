import TimingDiagram.Number.Scalar
import TimingDiagram.Signal.Outline
import TimingDiagram.Diagram.Basic
import TimingDiagram.Drawing.Skin

namespace TimingDiagram

-- The length of a cycle and the shift to the left, both in cycles, that a row is drawn with.
structure Timing (α : Type) where
  period : α
  phase : α
deriving Repr

namespace Timing

variable {α : Type} [Scalar α]

def default : Timing α := ⟨1.0, 0.0⟩

-- How many cells each brick takes besides its own.
def stretch (t : Timing α) (hscale : Nat) : α := t.period * Scalar.ofNat hscale - 1.0

end Timing

def Lane.timing (lane : Lane) : Timing Float := ⟨lane.period, lane.phase⟩

-- Spacers are drawn with the default timing.
def Row.timing (row : Row) : Timing Float := (row.lane.map Lane.timing).getD Timing.default

-- What all parts of one drawing share: the cell, the scale, and the room taken above and below
-- the rows by tick labels and captions.
structure Frame where
  cell : Cell
  hscale : Nat
  headTicks : Nat
  headCaption : Nat
  footTicks : Nat
  footCaption : Nat
deriving Repr, DecidableEq

namespace Frame

-- The distance between rows and the top of the first one.
def rowPitch : Nat := 30

def firstRow : Nat := 5

-- Where the titles of lanes end.
def titleX : Int := -10

def tickRoom (axis : Option Axis) : Nat := if axis.any Axis.hasTicks then 20 else 0

def captionRoom (axis : Option Axis) : Nat := if axis.any (·.text.isSome) then 46 else 0

def ofDiagram (skin : Skin) (d : Diagram) : Frame :=
  { cell := skin.cell
    hscale := d.hscale
    headTicks := tickRoom d.head
    headCaption := captionRoom d.head
    footTicks := tickRoom d.foot
    footCaption := captionRoom d.foot }

def headHeight (f : Frame) : Nat := f.headTicks + f.headCaption

def footHeight (f : Frame) : Nat := f.footTicks + f.footCaption

-- The top of a row.
def rowY (row : Nat) : Nat := firstRow + row * rowPitch

-- The height of all rows.
def rowsHeight (rows : Nat) : Nat := rows * rowPitch

variable {α : Type} [Scalar α]

-- The whole-numbered x of a position in a lane, counted in cycles.
def cycleX (f : Frame) (t : Timing α) (position : α) : α :=
  Scalar.truncated (Scalar.ofNat f.cell.width
    * (2.0 * position * t.period * Scalar.ofNat f.hscale - 2.0 * t.phase)
    + Scalar.ofNat f.cell.labelX)

end Frame

namespace Drawing

-- A text that keeps its blanks.
def preserved (attrs : List (String × String)) (content : Node) : Node :=
  .element "text" (("xml:space", "preserve") :: attrs) [content]

def plainSpan (s : String) : Node := .element "tspan" [] [.text s]

-- A group with an id.
def group (id : String) (children : List Node) : Element :=
  { tag := "g", attrs := [("id", id)], children }

-- A group with an id that is moved to a place.
def movedGroup (id move : String) (children : List Node) : Element :=
  { tag := "g", attrs := [("id", id), ("transform", move)], children }

-- Moves to a whole-numbered place.
def moveRight (x : Nat) : String := "translate(" ++ toString x ++ ")"

def moveDown (y : Nat) : String := "translate(0," ++ toString y ++ ")"

end Drawing

end TimingDiagram
