import TimingDiagram.Text.Width
import TimingDiagram.Drawing.Row
import TimingDiagram.Drawing.Marks
import TimingDiagram.Drawing.Arcs
import TimingDiagram.Drawing.Brackets

namespace TimingDiagram

-- What can be chosen about a drawing: strict drawings leave out inline labels, and glyph
-- definitions are taken over into the first drawing of a page.
structure DrawingOptions where
  strict : Bool := false
  glyphs : Option String := none
deriving Repr

namespace Drawing

def titleFontSize : Nat := 11

-- The room that the title of a row needs, in hundredths of a pixel.
def titleRoom (row : Row) : Except Overflow Nat :=
  (Text.advanceSum row.title).map fun units => units * titleFontSize + row.depth * 100

-- The width of the column of titles: what the widest one and the space behind it need, rounded
-- up to whole cells.
def titleColumn (cell : Cell) (rows : List Row) : Except Overflow Nat :=
  (rows.mapM titleRoom).map fun rooms =>
    let needed := rooms.foldl max 0 + 100 * Frame.titleX.natAbs
    (needed + 100 * cell.width - 1) / (100 * cell.width) * cell.width

-- The layer of the inline labels, unless these are left out.
def labels (options : DrawingOptions) (f : Frame) (rows : List Row) (index : Nat) :
    StateT (Timing Float) (Except DrawingError) (List Node) :=
  if options.strict then return []
  else do
    let labels ← drawRows (labelRow f index) rows
    return [(group s!"labels_{index}" labels).toNode]

-- Everything that hangs on the rows, in the order it is painted, right of a column for titles. The
-- timing that one part leaves entered is still entered when the next part begins.
def lanes (options : DrawingOptions) (f : Frame) (d : Diagram) (rows : List Row)
    (bricks : List (List Brick)) (length column index : Nat) :
    StateT (Timing Float) (Except DrawingError) Element := do
  let labels ← labels options f rows index
  let markLabels ← StateT.lift (DrawingError.ofOverflow (markLabels f d length rows.length))
  let waves := (rows.zip bricks).map fun (row, b) => waveRow f index row b
  let arcs ← arcs f rows d.edges index
  let gaps ← drawRows (gapRow f index) rows
  return movedGroup s!"lanes_{index}"
    s!"translate({column}.5,{f.headHeight}.5)"
    (labels ++ [marks f d length rows.length index markLabels] ++ waves
      ++ [arcs, (group s!"wavegaps_{index}" gaps).toNode])

-- The style and the definitions, which only the first drawing of a page carries.
def shared (options : DrawingOptions) (skin : Skin) (index : Nat) : List Node :=
  if index = 0 then
    let glyphs : List Node :=
      match options.glyphs with
      | some markup => [.raw markup]
      | none => []
    [.element "style" [] [.text skin.style],
      .element "defs" [] (skin.markers.map Element.toNode ++ glyphs)]
  else []

-- Number `index` of a page.
def sheet (options : DrawingOptions) (d : Diagram) (index : Nat) :
    StateT (Timing Float) (Except DrawingError) Element := do
  let skin := Skin.lookup d.skin
  let f := Frame.ofDiagram skin d
  let outline := d.signal.outline
  let rows := outline.rows
  let bricks ← drawRows (Row.bricks d.hscale) rows
  let length := (bricks.map List.length).foldl max 0
  let column ← StateT.lift (DrawingError.ofOverflow (titleColumn f.cell rows))
  let lanes ← lanes options f d rows bricks length column index
  let brackets := brackets f.headHeight index outline.boxes
  let width := column + f.cell.width * (length + 1)
  let height := Frame.rowsHeight rows.length + f.headHeight + f.footHeight
  return {
    tag := "svg"
    attrs := [("id", s!"svgcontent_{index}"), ("class", "WaveDrom"), ("overflow", "hidden"),
      ("width", toString width), ("height", toString height), ("viewBox", s!"0 0 {width} {height}")]
    children := shared options skin index
      ++ [(group s!"waves_{index}" [lanes.toNode, brackets]).toNode] }

end Drawing

-- Draws a diagram as number `index` of a page.
def Diagram.draw (options : DrawingOptions) (d : Diagram) (index : Nat) :
    Except DrawingError Element :=
  (Drawing.sheet options d index).run' Timing.default

end TimingDiagram
