import TimingDiagram.Drawing.Frame

namespace TimingDiagram.Drawing

def markStyle : String := "stroke:#888;stroke-width:0.5;stroke-dasharray:1,3"

-- The number of whole cycles of period 1 in the longest row.
def wholeCycles (f : Frame) (length : Nat) : Nat := length / (2 * f.hscale)

-- The distance between two marks.
def markPitch (f : Frame) : Nat := 2 * f.hscale * f.cell.width

-- A line through all rows at the start of each cycle and one after the last.
def markLines (f : Frame) (length rows index : Nat) : List Node :=
  (List.range (wholeCycles f length + 1)).map fun i =>
    .element "path" [("id", s!"gmark_{i}_{index}"),
      ("d", s!"m {i * markPitch f},0 0,{Frame.rowsHeight rows}"), ("style", markStyle)] []

def captionText (caption : Caption) (x : Nat) (y : Int) : Node :=
  let content :=
    match caption with
    | .plain s => plainSpan s
    | .rich markup => markup.toNode
  preserved [("x", toString x), ("y", toString y), ("text-anchor", "middle"), ("fill", "#000")]
    content

-- A caption moves further out when tick labels stand between it and the rows.
def headCaptionY (f : Frame) : Int := if 0 < f.headTicks then -33 else -13

def footCaptionY (f : Frame) (rows : Nat) : Int :=
  Frame.rowsHeight rows + (if 0 < f.footTicks then 45 else 25)

-- The labels of the first marks, up to the first mark without one; `i` marks lie behind.
def labelsUpTo (ticks : Ticks) (i : Nat) : Nat → Except Overflow (List String)
  | 0 => .ok []
  | count + 1 => do
    match ← ticks.label i with
    | some s => return s :: (← labelsUpTo ticks (i + 1) count)
    | none => return []

-- The label of the mark behind `i` others, where the first label stands at `x`.
def tickLabelAt (f : Frame) (x : Nat) (y : Int) (i : Nat) (s : String) : Node :=
  .element "text" [("x", toString (i * markPitch f + x)), ("y", toString y),
    ("text-anchor", "middle"), ("class", "muted"), ("xml:space", "preserve")] [.text s]

-- Labels from `x` on, one for each mark.
def tickLabels (f : Frame) (ticks : Ticks) (x : Nat) (y : Int) (count : Nat) :
    Except Overflow (List Node) :=
  (labelsUpTo ticks 0 count).map fun labels =>
    labels.zipIdx.map fun (s, i) => tickLabelAt f x y i s

def labelsOf (f : Frame) (ticks : Option Ticks) (x : Nat) (y : Int) (count : Nat) :
    Except Overflow (List Node) :=
  match ticks with
  | some ticks => tickLabels f ticks x y count
  | none => .ok []

-- Ticks stand on the marks, tocks halfway between them.
def axisLabels (f : Frame) (length : Nat) (axis : Option Axis) (y : Int) :
    Except Overflow (List Node) :=
  match axis with
  | some axis => do
    let cycles := wholeCycles f length
    let ticks ← labelsOf f axis.tick 0 y (cycles + 1)
    let tocks ← labelsOf f axis.tock (markPitch f / 2) y cycles
    return ticks ++ tocks
  | none => .ok []

-- The labels above all rows and the labels below them.
def markLabels (f : Frame) (d : Diagram) (length rows : Nat) : Except Overflow (List Node) := do
  return (← axisLabels f length d.head (-5))
    ++ (← axisLabels f length d.foot (Frame.rowsHeight rows + 15))

-- The marks of all cycles, the captions, and the labels of the marks, for rows of which the
-- longest has `length` bricks.
def marks (f : Frame) (d : Diagram) (length rows index : Nat) (labels : List Node) : Node :=
  let captionX := length * f.cell.width / 2
  let caption (axis : Option Axis) (y : Int) : List Node :=
    match axis.bind (·.text) with
    | some text => [captionText text captionX y]
    | none => []
  (group s!"gmarks_{index}" (markLines f length rows index
    ++ caption d.head (headCaptionY f)
    ++ caption d.foot (footCaptionY f rows)
    ++ labels)).toNode

end TimingDiagram.Drawing
