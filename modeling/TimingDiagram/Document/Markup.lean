import TimingDiagram.Document.Problem
import TimingDiagram.Markup.Element

namespace TimingDiagram.Document

-- The text of a string or a number.
def scalarText? : Json → Option String
  | .string s => some s
  | .number n => some n.text
  | _ => none

-- The attributes of a node, up to the first that is neither string nor number.
def markupAttrs (path : Path) : List (String × Json) → Except Problem (List (String × String))
  | [] => .ok []
  | (name, v) :: rest => do
    match scalarText? v with
    | some s => return (name, s) :: (← markupAttrs path rest)
    | none => .error (.malformedMarkup path (.attribute name))

mutual

-- A node is a list of a tag, possibly an object of attributes, and children; every child is a
-- string, a number or a node. The first fault in document order is reported.
def markupElement (path : Path) : Json → Except Problem Element
  | .array (.string tag :: .object members :: children) => do
    let attrs ← markupAttrs path members
    return { tag, attrs, children := ← markupChildren path 2 children }
  | .array (.string tag :: children) => do
    return { tag, attrs := [], children := ← markupChildren path 1 children }
  | .array _ => .error (.malformedMarkup path .noTag)
  | _ => .error (.malformedMarkup path .notList)

-- The children of a node from item `i` of its list on.
def markupChildren (path : Path) (i : Nat) : List Json → Except Problem (List Node)
  | [] => .ok []
  | child :: rest => do
    let node ← markupChild path i child
    return node :: (← markupChildren path (i + 1) rest)

def markupChild (path : Path) (i : Nat) : Json → Except Problem Node
  | .array items => do return (← markupElement (path ++ [.item i]) (.array items)).toNode
  | .string s => .ok (.text s)
  | .number n => .ok (.text n.text)
  | _ => .error (.malformedMarkup path .child)

end

end TimingDiagram.Document
