import TimingDiagram.Diagram.Connector
import TimingDiagram.Document.Problem
import TimingDiagram.Text.Classes

namespace TimingDiagram.Document

-- The blanks that may stand in front of an edge.
def isIndent (c : Char) : Bool := c == ' ' || c == '\t' || c == '\r' || c == '\n'

-- The parts of an edge: its ends, what is written between them, and the label.
structure EdgeText where
  source : Char
  target : Char
  between : String
  label : Option String
deriving Repr

-- An edge is a word, whose first and last character name the ends, and a label behind a single
-- blank. A word of one character names both ends.
def EdgeText.ofText? (text : String) : Option EdgeText :=
  let cs := text.toList.dropWhile isIndent
  let label := (cs.dropWhile (!Text.isBlank ·)).drop 1
  match cs.takeWhile (!Text.isBlank ·) with
  | [] => none
  | source :: others =>
    some {
      source
      target := others.getLastD source
      between := String.ofList others.dropLast
      label := if label.isEmpty then none else some (String.ofList label) }

-- The connector written between the ends of an edge. Nothing is a plain line; so is a connector
-- that is not known, but that is noted.
def connector (path : Path) (between : String) : Noted Connector :=
  if between.isEmpty then pure {}
  else
    match Connector.ofText? between with
    | some c => pure c
    | none => do
      Noted.note (.unknownConnector path between)
      return {}

def edge (path : Path) (text : String) : Noted (Option Edge) :=
  match EdgeText.ofText? text with
  | none => do
    Noted.note (.malformedEdge path text)
    return none
  | some e => do
    let connector ← connector path e.between
    return some { source := e.source, target := e.target, connector, label := e.label }

end TimingDiagram.Document
