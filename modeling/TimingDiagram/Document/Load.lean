import TimingDiagram.Diagram.Basic
import TimingDiagram.Document.EdgeText
import TimingDiagram.Document.LaneLabel
import TimingDiagram.Document.TickValue
import TimingDiagram.Document.Json.Reader

namespace TimingDiagram.Document

abbrev Members := List (String × Json)

-- What `load` makes of a member, or `absent` if it is not there.
def member {α : Type} (path : Path) (members : Members) (name : String) (absent : α)
    (load : Path → Json → Noted α) : Noted α :=
  match members.lookup name with
  | some value => load (path ++ [.member name]) value
  | none => pure absent

-- Notes a value of the wrong type and goes on without it.
def refuse {α : Type} (path : Path) (expected : Expected) (absent : α) : Noted α := do
  Noted.note (.wrongType path expected)
  return absent

def stringValue (path : Path) : Json → Noted (Option String)
  | .string s => pure (some s)
  | _ => refuse path .string none

-- The name of a lane is a text without the blanks around it, or a number.
def laneName (path : Path) : Json → Noted String
  | .string s => pure (Text.trim s)
  | .number n => pure n.text
  | _ => refuse path .string ""

-- Gives a lane its period. One that is not positive is an error, one above the cap is cut off.
def setPeriod (lane : Lane) (path : Path) : Json → Noted Lane
  | .number n =>
    if n.toFloat ≤ 0.0 then do
      Noted.note (.notPositive path)
      return lane
    else do
      Noted.noteIf (Lane.maxPeriod < n.toFloat) (.periodCapped path Lane.maxPeriod)
      return lane.withPeriod n.toFloat
  | _ => refuse path .number lane

def setPhase (lane : Lane) (path : Path) : Json → Noted Lane
  | .number n => pure { lane with phase := n.toFloat }
  | _ => refuse path .number lane

-- The label of one bus value.
def dataItem (path : Path) (item : Json) : Noted String :=
  match scalarText? item with
  | some s => pure s
  | none => refuse path .stringList ""

-- The labels of the bus values: the words of a text, or a list.
def laneData (path : Path) : Json → Noted (List String)
  | .string s => pure (Text.words s)
  | .array items => items.mapM (dataItem path)
  | _ => refuse path .stringOrList []

def lane (path : Path) (members : Members) : Noted Lane := do
  let name ← member path members "name" "" laneName
  let wave ← member path members "wave" none stringValue
  let lane : Lane := { name, wave := wave.getD "" }
  let lane ← member path members "period" lane (setPeriod lane)
  let lane ← member path members "phase" lane (setPhase lane)
  let data ← member path members "data" [] laneData
  let node ← member path members "node" none stringValue
  let label ← member path members "label" none stringValue
  return { lane with data, node, label := label.map laneLabel }

-- The members that make an object a lane rather than an empty row.
def laneMembers : List String := ["name", "wave", "node", "data", "label"]

def isLane (members : Members) : Bool :=
  laneMembers.any fun name => (members.lookup name).isSome

-- A group is named by a text or a whole number at the front of its list.
def groupName : List Json → Option String
  | .string s :: _ => some s
  | .number (.integer n) :: _ => some (toString n)
  | _ => none

mutual

-- A list is a group, an object is a lane or an empty row; nothing else is an entry.
def entry (path : Path) : Json → Noted (Option Entry)
  | .array items => do return some (.group (groupName items) (← entriesFrom path 0 items))
  | .object members =>
    if isLane members then do return some (.lane (← lane path members))
    else pure (some .spacer)
  | _ => pure none

-- The entries of a list from item `i` on.
def entriesFrom (path : Path) (i : Nat) : List Json → Noted (List Entry)
  | [] => pure []
  | item :: rest => do
    let first ← entry (path ++ [.item i]) item
    let others ← entriesFrom path (i + 1) rest
    return first.toList ++ others

end

def signal (path : Path) : Json → Noted Group
  | .array items => do return { name := groupName items, entries := ← entriesFrom path 0 items }
  | _ => refuse path .list {}

-- Gives a diagram its scale, rounded to a whole number. One below 1 is ignored, one above the cap
-- is cut off.
def setHscale (d : Diagram) (path : Path) : Json → Noted Diagram
  | .number n =>
    let hscale := roundHalfEven n.toFloat
    if hscale ≤ 0.0 then do
      Noted.note (.scaleIgnored path hscale)
      return d
    else do
      Noted.noteIf (Float.ofNat Diagram.maxHscale < hscale) (.scaleCapped path Diagram.maxHscale)
      return d.withHscale (countUpTo Diagram.maxHscale hscale)
  | _ => refuse path .number d

def setSkin (d : Diagram) (path : Path) : Json → Noted Diagram
  | .string s => pure { d with skin := s }
  | _ => refuse path .string d

-- A setting that is not taken over.
def skip (path : Path) (_ : Json) : Noted Unit := Noted.note (.unsupportedSetting path)

def settings (d : Diagram) (path : Path) : Json → Noted Diagram
  | .object members => do
    let d ← member path members "hscale" d (setHscale d)
    let d ← member path members "skin" d (setSkin d)
    member path members "hbounds" () skip
    return d
  | _ => refuse path .object d

-- The caption of an axis: a text that is not empty, or markup.
def caption (path : Path) : Json → Noted (Option Caption)
  | .string s => pure (if s.isEmpty then none else some (.plain s))
  | .array items =>
    match markupElement path (.array items) with
    | .ok e => pure (some (.rich e))
    | .error problem => do
      Noted.note problem
      return none
  | _ => refuse path .captionForm none

def axis (path : Path) : Json → Noted (Option Axis)
  | .object members => do
    let text ← member path members "text" none caption
    let tick ← member path members "tick" none ticks
    let tock ← member path members "tock" none ticks
    return some { text, tick, tock }
  | _ => refuse path .object none

def edgeItem (path : Path) : Json → Noted (Option Edge)
  | .string s => edge path s
  | _ => refuse path .string none

-- The edges of a list from item `i` on.
def edgesFrom (path : Path) (i : Nat) : List Json → Noted (List Edge)
  | [] => pure []
  | item :: rest => do
    let first ← edgeItem (path ++ [.item i]) item
    let others ← edgesFrom path (i + 1) rest
    return first.toList ++ others

def edges (path : Path) : Json → Noted (List Edge)
  | .array items => edgesFrom path 0 items
  | _ => refuse path .stringList []

-- The diagram that the members of a document describe, whose signal list is already found.
def diagram (members : Members) (signalValue : Json) : Noted Diagram := do
  let group ← signal [.member "signal"] signalValue
  let d : Diagram := { signal := group }
  let d ← member [] members "config" d (settings d)
  let head ← member [] members "head" none axis
  let foot ← member [] members "foot" none axis
  let edges ← member [] members "edge" [] edges
  return { d with head, foot, edges }

-- The members that hold diagrams of other kinds.
def otherKinds : List String := ["reg", "assign"]

def missingSignal (members : Members) : Problem :=
  match otherKinds.find? fun kind => (members.lookup kind).isSome with
  | some kind => .unsupportedDiagram kind
  | none => .missingSignal

-- A diagram and the warnings about its document.
structure Loaded where
  diagram : Diagram
  warnings : List Problem
deriving Repr

-- If any problem is an error, the errors are the answer and the warnings are dropped.
def settle (noted : Noted Diagram) : Except (List Problem) Loaded :=
  let errors := noted.problems.filter Problem.isError
  if errors.isEmpty then .ok ⟨noted.value, noted.problems⟩ else .error errors

-- The diagram that a value describes.
def ofJson : Json → Except (List Problem) Loaded
  | .object members =>
    match members.lookup "signal" with
    | some value => settle (diagram members value)
    | none => .error [missingSignal members]
  | _ => .error [.notObject]

-- Reads a document.
def load (source : String) : Except (List Problem) Loaded :=
  match Json.parse source with
  | .ok value => ofJson value
  | .error e => .error [.unreadable source e]

end TimingDiagram.Document
