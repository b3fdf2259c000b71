import TimingDiagram.Markup.Element

namespace TimingDiagram.Svg

-- The characters that cannot stand for themselves.
def escapeChar (c : Char) : List Char :=
  match c with
  | '&' => "&amp;".toList
  | '<' => "&lt;".toList
  | '>' => "&gt;".toList
  | c => [c]

def escape (s : String) : String := String.ofList (s.toList.flatMap escapeChar)

-- Between quotes neither kind of quote stands for itself, either.
def escapeQuotedChar (c : Char) : List Char :=
  match c with
  | '"' => "&quot;".toList
  | '\'' => "&apos;".toList
  | c => escapeChar c

def escapeQuoted (s : String) : String := String.ofList (s.toList.flatMap escapeQuotedChar)

-- Attributes are written in the order of their names.
def attributes (attrs : List (String × String)) : String :=
  String.join ((attrs.mergeSort fun a b => a.1 ≤ b.1).map fun (name, value) =>
    " " ++ name ++ "=\"" ++ escapeQuoted value ++ "\"")

-- Whether a node follows the one before it on the same line.
def isInline : Node → Bool
  | .text _ => true
  | _ => false

def endsInline (children : List Node) : Bool := children.getLast?.any isInline

mutual

-- The text of a node. Everything but text starts on a line of its own.
def nodeText : Node → String
  | .element tag attrs children =>
    if children.isEmpty then "<" ++ tag ++ attributes attrs ++ "/>"
    else "<" ++ tag ++ attributes attrs ++ ">" ++ childrenText children
      ++ (if endsInline children then "" else "\n") ++ "</" ++ tag ++ ">"
  | .text s => escape s
  | .raw markup => markup

def childrenText : List Node → String
  | [] => ""
  | n :: rest => (if isInline n then "" else "\n") ++ nodeText n ++ childrenText rest

end

-- A rectangle of one colour behind everything.
def backdrop (color : String) : Node :=
  .element "rect" [("width", "100%"), ("height", "100%"), ("fill", color)] []

-- The document with a drawing as its root.
def document (background : Option String) (root : Element) : String :=
  let behind : List Node :=
    match background with
    | some color => [backdrop color]
    | none => []
  let attrs := Element.assign "xmlns" "http://www.w3.org/2000/svg" []
  nodeText (.element root.tag
    (root.attrs.foldl (fun found p => Element.assign p.1 p.2 found) attrs)
    (behind ++ root.children))

end TimingDiagram.Svg
