import TimingDiagram.Signal.Tree

namespace TimingDiagram

-- One drawn row, counted from the top. A spacer has no lane.
structure Row where
  number : Nat
  depth : Nat
  lane : Option Lane
deriving Repr

-- The extent of a nested group: its first row, how many rows it has, and its indentation.
structure GroupBox where
  name : Option String
  x : Nat
  y : Nat
  height : Nat
deriving Repr, DecidableEq

-- A signal tree flattened into rows, with the boxes of its nested groups.
structure Outline where
  rows : List Row
  boxes : List GroupBox
deriving Repr

namespace Outline

-- A title needs more room than a bracket alone.
def indent (name : Option String) : Nat := if name.isSome then 25 else 10

mutual

-- The rows of an entry that stands at an indentation, numbered from `start`. The box of a group
-- comes after the boxes inside it.
def ofEntry (depth start : Nat) : Entry → Outline
  | .lane lane => ⟨[⟨start, depth, some lane⟩], []⟩
  | .spacer => ⟨[⟨start, depth, none⟩], []⟩
  | .group name entries =>
    let inner := depth + indent name
    let within := ofEntries inner start entries
    ⟨within.rows, within.boxes ++ [⟨name, inner, start, within.rows.length⟩]⟩

def ofEntries (depth start : Nat) : List Entry → Outline
  | [] => ⟨[], []⟩
  | e :: rest =>
    let first := ofEntry depth start e
    let others := ofEntries depth (start + first.rows.length) rest
    ⟨first.rows ++ others.rows, first.boxes ++ others.boxes⟩

end

end Outline

-- The root is indented like any other group but has no box.
def Group.outline (root : Group) : Outline :=
  Outline.ofEntries (Outline.indent root.name) 0 root.entries

end TimingDiagram
