import TimingDiagram.Number.Printed

namespace TimingDiagram

-- A piece of a drawing: an element with its attributes in the order they were first set, a text,
-- or markup that is taken over as it is.
inductive Node where
  | element (tag : String) (attrs : List (String × String)) (children : List Node)
  | text (text : String)
  | raw (markup : String)
deriving Repr

structure Element where
  tag : String
  attrs : List (String × String) := []
  children : List Node := []
deriving Repr

namespace Element

def toNode (e : Element) : Node := .element e.tag e.attrs e.children

def ofNode? : Node → Option Element
  | .element tag attrs children => some ⟨tag, attrs, children⟩
  | _ => none

-- Replaces the value of a name in place, or adds the pair at the end.
def assign (name value : String) : List (String × String) → List (String × String)
  | [] => [(name, value)]
  | (n, v) :: rest => if n = name then (n, value) :: rest else (n, v) :: assign name value rest

def set (e : Element) (name value : String) : Element :=
  { e with attrs := assign name value e.attrs }

def add (e : Element) (child : Node) : Element := { e with children := e.children ++ [child] }

def addText (e : Element) (s : String) : Element := e.add (.text s)

def attr? (e : Element) (name : String) : Option String := e.attrs.lookup name

def childElements (e : Element) : List Element := e.children.filterMap ofNode?

-- The number of nodes of trees.
mutual

def nodeSize : Node → Nat
  | .element _ _ children => 1 + nodesSize children
  | _ => 1

def nodesSize : List Node → Nat
  | [] => 0
  | n :: rest => nodeSize n + nodesSize rest

end

theorem nodesSize_append (front back : List Node) :
    nodesSize (front ++ back) = nodesSize front + nodesSize back := by
  induction front with
  | nil => exact (Nat.zero_add _).symm
  | cons n rest ih => rw [List.cons_append, nodesSize, nodesSize, ih, Nat.add_assoc]

theorem nodesSize_elements_le (children : List Node) :
    nodesSize ((children.filterMap ofNode?).map toNode) ≤ nodesSize children := by
  induction children with
  | nil => exact Nat.le_refl _
  | cons n rest ih =>
      cases n with
      | element tag attrs children => exact Nat.add_le_add_left ih _
      | text s | raw markup => exact Nat.le_trans ih (Nat.le_add_left _ _)

-- The elements of the trees on a stack, the topmost tree first: an element is taken off and its
-- element children are put back in its place.
def descendantsFrom : List Element → List Element
  | [] => []
  | e :: stack => e :: descendantsFrom (e.childElements ++ stack)
termination_by stack => nodesSize (stack.map toNode)
decreasing_by
  have hle := nodesSize_elements_le e.children
  rw [List.map_append, nodesSize_append, childElements, List.map_cons, nodesSize, toNode, nodeSize]
  omega

-- An element and all elements below it, in document order.
def descendants (e : Element) : List Element := descendantsFrom [e]

def findById? (e : Element) (id : String) : Option Element :=
  e.descendants.find? fun d => d.attr? "id" == some id

mutual

def nodeText : Node → String
  | .element _ _ children => nodesText children
  | .text s => s
  | .raw _ => ""

def nodesText : List Node → String
  | [] => ""
  | n :: rest => nodeText n ++ nodesText rest

end

-- All text below an element; raw markup has none.
def textContent (e : Element) : String := nodesText e.children

def isEmpty (e : Element) : Bool := e.children.isEmpty

end Element

-- The transforms that drawings use.
def translate (x : Float) (y : Option Float) : String :=
  match y with
  | some y => "translate(" ++ coordinateText x ++ "," ++ coordinateText y ++ ")"
  | none => "translate(" ++ coordinateText x ++ ")"

def rotate (degrees : Float) : String := "rotate(" ++ coordinateText degrees ++ ")"

end TimingDiagram
