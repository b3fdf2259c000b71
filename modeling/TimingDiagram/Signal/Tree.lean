namespace TimingDiagram

-- One cycle of a lane's inline labels: nothing, or a text that may stand some cycles further on.
inductive LabelToken where
  | skip
  | text (text : String) (offset : Float)
deriving Repr

-- A waveform. The period is the length of a cycle, the phase shifts the wave to the left, both
-- counted in cycles. `data` labels the runs of bus values, `node` names points in time.
structure Lane where
  name : String := ""
  wave : String := ""
  period : Float := 1.0
  phase : Float := 0.0
  data : List String := []
  node : Option String := none
  label : Option (List LabelToken) := none
deriving Repr

namespace Lane

-- The longest period that is drawn.
def maxPeriod : Float := 100.0

-- A period above the cap, or one that is no number, counts as the cap.
def withPeriod (lane : Lane) (period : Float) : Lane :=
  { lane with period := if period < maxPeriod then period else maxPeriod }

end Lane

-- An entry of the signal list: a lane, a group of entries, or an empty row.
inductive Entry where
  | lane (lane : Lane)
  | group (name : Option String) (entries : List Entry)
  | spacer
deriving Repr

-- A list of entries with an optional title. The root of a diagram is a group, too.
structure Group where
  name : Option String := none
  entries : List Entry := []
deriving Repr

mutual

def Entry.hasLane : Entry → Bool
  | .lane _ => true
  | .group _ entries => anyLane entries
  | .spacer => false

def anyLane : List Entry → Bool
  | [] => false
  | e :: rest => e.hasLane || anyLane rest

end

-- Whether no lane exists anywhere in a group.
def Group.hasNoLanes (g : Group) : Bool := !anyLane g.entries

end TimingDiagram
