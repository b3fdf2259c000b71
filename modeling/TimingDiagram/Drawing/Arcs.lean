import TimingDiagram.Text.Width
import TimingDiagram.Drawing.Row

namespace TimingDiagram

-- A place on the drawing; x runs with time, y downwards over the rows.
structure Point (α : Type) where
  x : α
  y : α
deriving Repr, DecidableEq

namespace Point

def add (a b : Point Float) : Point Float := ⟨a.x + b.x, a.y + b.y⟩

def sub (a b : Point Float) : Point Float := ⟨a.x - b.x, a.y - b.y⟩

def midpoint (a b : Point Float) : Point Float := ⟨(a.x + b.x) / 2.0, (a.y + b.y) / 2.0⟩

def withX (p : Point Float) (x : Float) : Point Float := ⟨x, p.y⟩

-- The x a fraction of the way towards another point.
def lerpX (a b : Point Float) (t : Float) : Float := a.x + (b.x - a.x) * t

end Point

-- Why a diagram cannot be drawn: an edge names an event that no lane has, or a number on the way
-- becomes too large.
inductive DrawingError where
  | undefinedEvent (name : Char)
  | overflow (reason : Overflow)
deriving DecidableEq, Repr

namespace DrawingError

def message : DrawingError → String
  | .undefinedEvent name => "Edge references undefined event `" ++ name.toString ++ "`"
  | .overflow reason => reason.message

-- Takes an overflow over into the drawing.
def ofOverflow {α : Type} (result : Except Overflow α) : Except DrawingError α :=
  result.mapError .overflow

end DrawingError

namespace Drawing

variable {α : Type} [Scalar α]

-- The height at which the events of a row lie.
def eventY (f : Frame) (row : Nat) : Nat := Frame.rowY row + f.cell.height / 2

-- The events named in the rest of a node string. Each character but a bracket takes one cycle, or
-- a quarter after an opening bracket; a dot names nothing.
def eventsFrom (f : Frame) (t : Timing α) (y : α) (step position : α) :
    List Char → List (Char × Point α)
  | [] => []
  | c :: rest =>
    if c == '<' then eventsFrom f t y 0.25 position rest
    else if c == '>' then eventsFrom f t y 1.0 position rest
    else if c == '.' then eventsFrom f t y step (position + step) rest
    else (c, ⟨f.cycleX t position, y⟩) :: eventsFrom f t y step (position + step) rest

def nodeEvents (f : Frame) (t : Timing α) (row : Nat) (node : String) : List (Char × Point α) :=
  eventsFrom f t (Scalar.ofNat (eventY f row)) 1.0 0.0 node.toList

-- The events of a row in the order they are named.
def rowEvents (f : Frame) (t : Timing Float) (row : Row) : List (Char × Point Float) :=
  match row.lane.bind (·.node) with
  | some node => nodeEvents f t row.number node
  | none => []

-- A name that comes again keeps its place in the list and moves to the new point.
def place (name : Char) (p : Point α) : List (Char × Point α) → List (Char × Point α)
  | [] => [(name, p)]
  | (n, q) :: rest => if n = name then (n, p) :: rest else (n, q) :: place name p rest

-- Adds the events of a row to those found in the rows above it.
def placeAll (found added : List (Char × Point α)) : List (Char × Point α) :=
  added.foldl (fun found e => place e.1 e.2 found) found

-- All events of a drawing, each name once.
def events {m : Type → Type} [Monad m] (f : Frame) (rows : List Row) :
    StateT (Timing Float) m (List (Char × Point Float)) := do
  let named ← drawRows (rowEvents f) rows
  return named.foldl placeAll []

def plainStyle : String := "fill:none;stroke:#00F;stroke-width:1"

def arrowStyle : String :=
  "marker-end:url(#arrowhead);stroke:#0041c4;stroke-width:1;fill:none"

def doubleArrowStyle : String :=
  "marker-end:url(#arrowhead);marker-start:url(#arrowtail);stroke:#0041c4;stroke-width:1;fill:none"

def headsStyle : Heads → String
  | .none => plainStyle
  | .target => arrowStyle
  | .both => doubleArrowStyle

def pair (x y : Float) : String := coordinateText x ++ "," ++ coordinateText y

-- The path of a connector.
def coursePath (course : Course) (source target : Point Float) : String :=
  let d := target.sub source
  let start := pair source.x source.y
  let finish := pair d.x d.y
  match course with
  | .straight => "M " ++ start ++ " " ++ pair target.x target.y
  | .curve => "M " ++ start ++ " c " ++ pair (0.7 * d.x) 0.0 ++ " " ++ pair (0.3 * d.x) d.y ++ " "
      ++ finish
  | .curveOut => "M " ++ start ++ " c " ++ pair (0.7 * d.x) 0.0 ++ " " ++ finish ++ " " ++ finish
  | .curveIn => "M " ++ start ++ " c 0,0 " ++ pair (0.3 * d.x) d.y ++ " " ++ finish
  | .acrossDown => "m " ++ start ++ " " ++ pair d.x 0.0 ++ " " ++ pair 0.0 d.y
  | .downAcross => "m " ++ start ++ " " ++ pair 0.0 d.y ++ " " ++ pair d.x 0.0
  | .step => "m " ++ start ++ " " ++ pair (d.x / 2.0) 0.0 ++ " " ++ pair 0.0 d.y ++ " "
      ++ pair (d.x / 2.0) 0.0

-- Where the label of a connector is centred.
def labelAnchor (course : Course) (source target : Point Float) : Point Float :=
  let middle := source.midpoint target
  match course with
  | .curveOut => middle.withX (source.lerpX target 0.75)
  | .curveIn => middle.withX (source.lerpX target 0.25)
  | .acrossDown => middle.withX target.x
  | .downAcross => middle.withX source.x
  | .straight | .curve | .step => middle

def labelFontSize : Float := 8.0

-- A text on a white box, centred on a point.
def boxedLabel (centre : Point Float) (s : String) : Except Overflow Node :=
  (Text.width s labelFontSize).map fun textWidth =>
    let width := textWidth + 2.0
    .element "g" [("transform", translate centre.x (some centre.y))]
      [.element "rect" [("x", coordinateText (truncate (-width / 2.0))), ("y", "-5"),
          ("width", coordinateText width), ("height", "10"), ("style", "fill:#FFF;")] [],
        .element "text" [("style", "font-size:8px;"), ("text-anchor", "middle"), ("y", "3")]
          [.element "tspan" [] [.text s]]]

def find (found : List (Char × Point Float)) (name : Char) : Except DrawingError (Point Float) :=
  match found.lookup name with
  | some p => .ok p
  | none => .error (.undefinedEvent name)

-- The path of an edge, and its label unless that is empty.
def edgeNodes (found : List (Char × Point Float)) (e : Edge) : Except DrawingError (List Node) := do
  let source ← find found e.source
  let target ← find found e.target
  let id := "gmark_" ++ e.source.toString ++ "_" ++ e.target.toString
  let path : Node := .element "path" [("id", id),
    ("d", coursePath e.connector.course source target), ("style", headsStyle e.connector.heads)] []
  match e.label with
  | some s =>
    if s.isEmpty then return [path]
    else
      let anchor := labelAnchor e.connector.course source target
      return [path, ← DrawingError.ofOverflow (boxedLabel anchor s)]
  | none => return [path]

-- Events named by a small letter or a digit are written out, unless they lie at the left end.
def isShown (e : Char × Point Float) : Bool :=
  (Text.isLowercase e.1 || e.1.isDigit) && 0.0 < e.2.x

def eventNodes (found : List (Char × Point Float)) : Except Overflow (List Node) :=
  (found.filter isShown).mapM fun e => boxedLabel e.2 e.1.toString

-- The connectors of all edges and then the names of the events.
def connectors (found : List (Char × Point Float)) (edges : List Edge) :
    Except DrawingError (List Node) := do
  let drawn ← edges.mapM (edgeNodes found)
  return drawn.flatten ++ (← DrawingError.ofOverflow (eventNodes found))

def arcs (f : Frame) (rows : List Row) (edges : List Edge) (index : Nat) :
    StateT (Timing Float) (Except DrawingError) Node := do
  let found ← events f rows
  let drawn ← StateT.lift (connectors found edges)
  return (group s!"wavearcs_{index}" drawn).toNode

end Drawing

end TimingDiagram
