import TimingDiagram.Drawing.Frame

namespace TimingDiagram

-- A stroke of a path, given by places relative to where it starts: a line to `(x, y)`, or a curve
-- to `(x, y)` that is drawn towards two other places on the way.
inductive Stroke where
  | line (x y : Int)
  | curve (x₁ y₁ x₂ y₂ x y : Int)
deriving DecidableEq, Repr

def Stroke.text : Stroke → String
  | .line x y => s!"l {x},{y}"
  | .curve x₁ y₁ x₂ y₂ x y => s!"c {x₁},{y₁} {x₂},{y₂} {x},{y}"

-- The bracket of a group. It starts half a pixel right of and below the corner `(x, y)`.
structure Bracket where
  x : Nat
  y : Nat
  run : Int
deriving DecidableEq, Repr

namespace Bracket

def ofBox (headHeight : Nat) (box : GroupBox) : Bracket :=
  { x := box.x
    y := box.y * Frame.rowPitch + 3 + headHeight
    run := (box.height * Frame.rowPitch : Nat) - 16 }

-- The bracket bends to the left and down, runs down by `run`, and bends back.
def strokes (b : Bracket) : List Stroke :=
  [.curve (-3) 0 (-5) 2 (-5) 5, .line 0 b.run, .curve 0 3 2 5 5 5]

def path (b : Bracket) : String :=
  s!"m {b.x}.5,{b.y}.5 " ++ " ".intercalate (b.strokes.map Stroke.text)

end Bracket

namespace Drawing

def bracketStyle : String := "stroke:#0041c4;stroke-width:1;fill:none"

-- A title runs upwards beside the middle of the bracket.
def groupTitle (headHeight : Nat) (box : GroupBox) (name : String) : Node :=
  let x : Int := box.x - 10
  let y := Frame.rowPitch * box.y + Frame.rowPitch * box.height / 2 + headHeight
  .element "g" [("transform", s!"translate({x},{y})")]
    [.element "g" [("transform", rotate 270.0)]
      [preserved [("text-anchor", "middle"), ("class", "info")] (plainSpan name)]]

-- The bracket of each group, followed by its title if it has a name.
def brackets (headHeight index : Nat) (boxes : List GroupBox) : Node :=
  (group s!"groups_{index}" (boxes.zipIdx.flatMap fun (box, i) =>
    .element "path" [("id", s!"group_{i}_{index}"), ("d", (Bracket.ofBox headHeight box).path),
        ("style", bracketStyle)] []
      :: (match box.name with
        | some name => [groupTitle headHeight box name]
        | none => []))).toNode

end Drawing

end TimingDiagram
