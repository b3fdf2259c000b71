import TimingDiagram.Text.Classes
import TimingDiagram.Wave.Bricks
import TimingDiagram.Drawing.Frame

namespace TimingDiagram

namespace Row

-- The bricks of a row; a spacer has none.
def bricks (hscale : Nat) (t : Timing Float) (row : Row) : List Brick :=
  match row.lane with
  | some lane => Wave.bricks lane.wave (t.stretch hscale) t.phase
  | none => []

-- The title of a row, without blanks around it.
def title (row : Row) : String :=
  match row.lane with
  | some lane => Text.trim lane.name
  | none => ""

def data (row : Row) : List String :=
  match row.lane with
  | some lane => lane.data
  | none => []

def labelTokens (row : Row) : List LabelToken :=
  match row.lane with
  | some lane => lane.label.getD []
  | none => []

end Row

namespace Drawing

section Rows

variable {m : Type → Type} [Monad m] {β : Type}

-- The timing of a row takes the place of the timing that was entered before.
def enter (row : Row) : StateT (Timing Float) m Unit := set row.timing

-- A part of the drawing of a row, with the timing that is entered then.
def drawRow (part : Timing Float → Row → β) (row : Row) : StateT (Timing Float) m β := do
  enter row
  return part (← get) row

-- The same part of all rows, from the top. The timing of the last row stays entered.
def drawRows (part : Timing Float → Row → β) (rows : List Row) :
    StateT (Timing Float) m (List β) :=
  rows.mapM (drawRow part)

end Rows

-- The middle of a run of `run` bricks that ends before brick `i`, in half cells.
def middle (i run : Nat) : Nat := 2 * i - (run + 1)

-- The middles of the maximal runs of steady bus values. Brick `i` comes next and `run` bricks of
-- a run lie behind it.
def runMiddlesFrom (i run : Nat) : List Brick → List Nat
  | [] => if run = 0 then [] else [middle i run]
  | b :: rest =>
    if b.dataValue.isSome then runMiddlesFrom (i + 1) (run + 1) rest
    else if run = 0 then runMiddlesFrom (i + 1) 0 rest
    else middle i run :: runMiddlesFrom (i + 1) 0 rest

def runMiddles (bricks : List Brick) : List Nat := runMiddlesFrom 0 0 bricks

-- The shift, in cells, that brings a lane back onto the grid after whole bricks were taken off.
def phaseOffset {α : Type} [Scalar α] [LT α] [DecidableLT α] (phase : α) : α :=
  if 0.0 < phase then Scalar.roundedUp (2.0 * phase) - 2.0 * phase else -2.0 * phase

-- One glyph for each brick, side by side.
def glyphs (cell : Cell) (bricks : List Brick) : List Node :=
  bricks.zipIdx.map fun (b, i) =>
    .element "use" [("href", "#" ++ b.name), ("transform", moveRight (i * cell.width))] []

-- Each run of bus values takes the next data label; labels that are left over are not drawn.
def dataLabels (cell : Cell) (bricks : List Brick) (data : List String) : List Node :=
  ((runMiddles bricks).zip data).map fun (halves, value) =>
    preserved [("x", toString (halves / 2 * cell.width + cell.labelX)),
      ("y", toString cell.baseline), ("text-anchor", "middle")] (plainSpan value)

def titleText (cell : Cell) (title : String) : List Node :=
  if title.isEmpty then []
  else
    [preserved [("x", toString Frame.titleX), ("y", toString cell.baseline),
      ("text-anchor", "end"), ("class", "info")] (plainSpan title)]

-- The title, the wave and the data labels of a row.
def waveRow (f : Frame) (index : Nat) (row : Row) (bricks : List Brick) : Node :=
  let phase := row.timing.phase
  let wave := movedGroup s!"wavelane_draw_{row.number}_{index}"
    (translate (phaseOffset phase * Float.ofNat f.cell.width) (some 0.0))
    (glyphs f.cell bricks ++ dataLabels f.cell bricks row.data)
  (movedGroup s!"wavelane_{row.number}_{index}" (moveDown (Frame.rowY row.number))
    (titleText f.cell row.title ++ [wave.toNode])).toNode

variable {α : Type} [Scalar α]

-- The x of every gap sign in the rest of a wave. `position` is the time reached, in half cycles.
-- A gap lies in the middle of its cycle, which is the end of a short one.
def gapsFrom (f : Frame) (t : Timing α) (short : Bool) (position : α) : List Char → List α
  | [] => []
  | c :: rest =>
    if c == '<' then gapsFrom f t true position rest
    else if c == '>' then gapsFrom f t false position rest
    else
      let position := position + (if short then t.period else 2.0 * t.period)
      if c == '|' then
        let centre := if short then position else position - t.period
        Scalar.ofNat f.cell.width
            * (centre * Scalar.ofNat f.hscale - Scalar.truncated (2.0 * t.phase))
          :: gapsFrom f t short position rest
      else gapsFrom f t short position rest

def gaps (f : Frame) (t : Timing α) (wave : String) : List α :=
  gapsFrom f t false 0.0 wave.toList

-- The gap signs of a row.
def gapRow (f : Frame) (index : Nat) (t : Timing Float) (row : Row) : Node :=
  let signs : List Node :=
    match row.lane with
    | some lane => (gaps f t lane.wave).map fun x =>
        .element "use" [("href", "#gap"), ("transform", translate x none)] []
    | none => []
  (movedGroup s!"wavegap_{row.number}_{index}" (moveDown (Frame.rowY row.number)) signs).toNode

-- The room taken by each character of an inline label.
def labelCharWidth : Nat := 7

-- One inline label in the middle of a white box.
def inlineLabel (f : Frame) (t : Timing Float) (position : Float) (s : String) : List Node :=
  let x := f.cycleX t position
  let y : Int := f.cell.height / 2
  let width := s.length * labelCharWidth
  [.element "rect" [("x", coordinateText (x - Float.ofNat width / 2.0)), ("y", toString (y - 5)),
      ("width", toString width), ("height", "8"), ("style", "fill:#FFF;")] [],
    .element "text" [("x", coordinateText x), ("y", toString (y + 2)), ("style", "font-size:8px;"),
      ("text-anchor", "middle")] [.text s]]

-- The inline labels of a row; each token takes one cycle.
def labelRow (f : Frame) (index : Nat) (t : Timing Float) (row : Row) : Node :=
  let labels : List Node := row.labelTokens.zipIdx.flatMap fun (token, i) =>
    match token with
    | .skip => []
    | .text s offset => inlineLabel f t (Float.ofNat i + offset) s
  (movedGroup s!"labels_{row.number}_{index}" (moveDown (Frame.rowY row.number)) labels).toNode

end Drawing

end TimingDiagram
