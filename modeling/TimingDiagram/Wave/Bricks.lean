import TimingDiagram.Number.Scalar
import TimingDiagram.Wave.Event

namespace TimingDiagram

-- How much longer than one cell a brick is drawn: half, which keeps every other brick, or a whole
-- number of extra cells.
inductive Stretch where
  | half
  | extra (cells : Nat)
deriving DecidableEq, Repr

namespace Stretch

-- The most extra cells that a capped period on a capped scale can ask for.
def limit : Nat := 9999

-- A fraction of a cell is not drawn.
def of {α : Type} [Scalar α] (x : α) : Stretch :=
  if Scalar.same x (-0.5) then .half else .extra (Scalar.upTo limit x)

end Stretch

namespace Brick

-- Follows each brick by `extra` copies of the brick that prolongs it.
def prolonged (extra : Nat) (bricks : List Brick) : List Brick :=
  bricks.flatMap fun b => b :: List.replicate extra b.sustain

-- Keeps the bricks at even positions.
def alternate : List Brick → List Brick
  | a :: _ :: rest => a :: alternate rest
  | rest => rest

end Brick

namespace Event

-- The first brick of a clock or a sharp level: its edge, unless the lane is on that level already.
def entry (e : Event) (edge : ClockEdge) : Brick :=
  match e.previous with
  | none => .edge edge
  | some before => (Symbol.joined before e.symbol).getD (.edge edge)

-- The passage into a plain level or a bus value.
def passage (e : Event) : Brick :=
  match e.previous with
  | none => e.symbol.steady
  | some before =>
    .transition before.trailingLevel e.symbol.settledLevel before.dataIndex e.symbol.dataIndex

-- Two bricks for each cycle, at full length.
def fullBricks (e : Event) : List Brick :=
  match e.symbol with
  | .clock edge => (List.replicate e.cycles [e.entry edge, .edge edge.inverse]).flatten
  | .sharp edge =>
    (match e.previous with
      | none => e.symbol.steady
      | some _ => e.entry edge) :: List.replicate (2 * e.repeats + 1) e.symbol.steady
  | _ => e.passage :: List.replicate (2 * e.repeats + 1) e.symbol.steady

-- Short cycles are cut to one brick each.
def cutBricks (e : Event) : List Brick :=
  if e.short then e.fullBricks.take e.cycles else e.fullBricks

-- Half a cell is drawn by leaving out bricks, except that a clock keeps all its edges.
def bricks (stretch : Stretch) (e : Event) : List Brick :=
  match stretch with
  | .half => if e.symbol.isClock then e.cutBricks else Brick.alternate e.cutBricks
  | .extra n => Brick.prolonged n e.cutBricks

end Event

namespace Wave

-- The bricks of a wave before it is shifted.
def unshifted (wave : String) (stretch : Stretch) : List Brick :=
  (events wave).flatMap (Event.bricks stretch)

-- A positive phase shifts a lane to the left: every half cycle begun takes one brick off.
def shifted {α : Type} [Scalar α] (phase : α) (bricks : List Brick) : List Brick :=
  bricks.drop (Scalar.upTo bricks.length (Scalar.roundedUp (2.0 * phase)))

def bricks {α : Type} [Scalar α] (wave : String) (stretch phase : α) : List Brick :=
  shifted phase (unshifted wave (Stretch.of stretch))

end Wave

end TimingDiagram
