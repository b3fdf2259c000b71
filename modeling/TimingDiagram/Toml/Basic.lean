namespace TimingDiagram.Toml

-- How a table came to be: through the headers of tables below it, through a header of its own,
-- through a dotted key, or written out in braces.
inductive Origin where
  | implied | header | dotted | inline
deriving DecidableEq, Repr

-- A value of a settings file. A table of tables grows by one with each of its headers; a list
-- that is written out does not grow. A number can be too large to be kept.
inductive Value where
  | string (s : String)
  | integer (n : Int)
  | float (x : Float)
  | tooLarge
  | bool (b : Bool)
  | date (text : String)
  | array (items : List Value)
  | table (origin : Origin) (entries : List (String × Value))
  | tables (items : List (List (String × Value)))
deriving Repr

abbrev Table := List (String × Value)

mutual

-- Whether every number in a value could be kept.
def Value.isReadable : Value → Bool
  | .tooLarge => false
  | .array items => Value.areReadable items
  | .table _ entries => Table.isReadable entries
  | .tables items => Table.areReadable items
  | _ => true

def Value.areReadable : List Value → Bool
  | [] => true
  | v :: rest => v.isReadable && Value.areReadable rest

def Table.isReadable : List (String × Value) → Bool
  | [] => true
  | (_, v) :: rest => v.isReadable && Table.isReadable rest

def Table.areReadable : List (List (String × Value)) → Bool
  | [] => true
  | t :: rest => Table.isReadable t && Table.areReadable rest

end

namespace Table

-- Gives the entry of a name its new value, or adds one at the end.
def put (name : String) (value : Value) : Table → Table
  | [] => [(name, value)]
  | (n, v) :: rest => if n = name then (n, value) :: rest else (n, v) :: put name value rest

-- Changes the table that a header's path leads to. Tables on the way that do not exist are
-- implied; of a table of tables the last one is meant.
def change (f : Table → Option Table) : List String → Table → Option Table
  | [], t => f t
  | name :: path, t =>
    match t.lookup name with
    | none => (change f path []).map fun inner => t.put name (.table .implied inner)
    | some (.table .inline _) => none
    | some (.table origin inner) =>
      (change f path inner).map fun inner => t.put name (.table origin inner)
    | some (.tables items) =>
      (change f path (items.getLastD [])).map fun inner =>
        t.put name (.tables (items.dropLast ++ [inner]))
    | some _ => none

-- Opens a table with a header of its own, which only an implied table can still get.
def openTable (name : String) (t : Table) : Option Table :=
  match t.lookup name with
  | none => some (t.put name (.table .header []))
  | some (.table .implied inner) => some (t.put name (.table .header inner))
  | some _ => none

-- Adds one more table to a table of tables.
def openNext (name : String) (t : Table) : Option Table :=
  match t.lookup name with
  | none => some (t.put name (.tables [[]]))
  | some (.tables items) => some (t.put name (.tables (items ++ [[]])))
  | some _ => none

-- Enters a value under a dotted key. No name can be entered twice. The way may lead through any
-- table without a header of its own; an implied table in which it ends counts as made by dotted
-- keys from then on. `isOpen` says whether the way may end in the table at hand.
def enter (value : Value) (isOpen : Bool) : List String → String → Table → Option Table
  | [], name, t =>
    if isOpen && (t.lookup name).isNone then some (t.put name value) else none
  | first :: path, name, t =>
    match t.lookup first with
    | none => (enter value true path name []).map fun inner => t.put first (.table .dotted inner)
    | some (.table .dotted inner) =>
      (enter value true path name inner).map fun inner => t.put first (.table .dotted inner)
    | some (.table .implied inner) =>
      let origin : Origin := if path.isEmpty then .dotted else .implied
      (enter value true path name inner).map fun inner => t.put first (.table origin inner)
    | some (.tables items) =>
      (enter value false path name (items.getLastD [])).map fun inner =>
        t.put first (.tables (items.dropLast ++ [inner]))
    | some _ => none

end Table

end TimingDiagram.Toml
