import TimingDiagram.Markup.Element

namespace TimingDiagram

-- The size of the cell that one brick fills, where labels start in it, and their baseline.
structure Cell where
  width : Nat
  height : Nat
  labelX : Nat
  baseline : Nat
deriving Repr, DecidableEq

-- A style rule: a selector and its properties.
abbrev StyleRule := String × List (String × String)

def StyleRule.text (rule : StyleRule) : String :=
  rule.1 ++ "\x7b" ++ ";".intercalate (rule.2.map fun p => p.1 ++ ":" ++ p.2) ++ "\x7d"

structure Skin where
  name : String
  cell : Cell
  rules : List StyleRule
deriving Repr

namespace Skin

def defaultRules : List StyleRule := [
  ("text", [("font-size", "11pt"), ("font-style", "normal"), ("font-variant", "normal"),
    ("font-weight", "normal"), ("font-stretch", "normal"), ("text-align", "center"),
    ("fill-opacity", "1"), ("font-family", "Helvetica")]),
  (".muted", [("fill", "#aaa")]),
  (".warning", [("fill", "#f6b900")]),
  (".error", [("fill", "#f60000")]),
  (".info", [("fill", "#0041c4")]),
  (".success", [("fill", "#00ab00")]),
  (".h1", [("font-size", "33pt"), ("font-weight", "bold")]),
  (".h2", [("font-size", "27pt"), ("font-weight", "bold")]),
  (".h3", [("font-size", "20pt"), ("font-weight", "bold")]),
  (".h4", [("font-size", "14pt"), ("font-weight", "bold")]),
  (".h5", [("font-size", "11pt"), ("font-weight", "bold")]),
  (".h6", [("font-size", "8pt"), ("font-weight", "bold")]),
  (".s1", [("fill", "none"), ("stroke", "#000"), ("stroke-width", "1"),
    ("stroke-linecap", "round"), ("stroke-linejoin", "miter"), ("stroke-miterlimit", "4"),
    ("stroke-opacity", "1"), ("stroke-dasharray", "none")]),
  (".s2", [("fill", "none"), ("stroke", "#000"), ("stroke-width", "0.5"),
    ("stroke-linecap", "round"), ("stroke-linejoin", "miter"), ("stroke-miterlimit", "4"),
    ("stroke-opacity", "1"), ("stroke-dasharray", "none")]),
  (".s3", [("color", "#000"), ("fill", "none"), ("stroke", "#000"), ("stroke-width", "1"),
    ("stroke-linecap", "round"), ("stroke-linejoin", "miter"), ("stroke-miterlimit", "4"),
    ("stroke-opacity", "1"), ("stroke-dasharray", "1, 3"), ("stroke-dashoffset", "0"),
    ("marker", "none"), ("visibility", "visible"), ("display", "inline"),
    ("overflow", "visible"), ("enable-background", "accumulate")]),
  (".s4", [("color", "#000"), ("fill", "none"), ("stroke", "#000"), ("stroke-width", "1"),
    ("stroke-linecap", "round"), ("stroke-linejoin", "miter"), ("stroke-miterlimit", "4"),
    ("stroke-opacity", "1"), ("stroke-dasharray", "none"), ("stroke-dashoffset", "0"),
    ("marker", "none"), ("visibility", "visible"), ("display", "inline"),
    ("overflow", "visible")]),
  (".s5", [("fill", "#fff"), ("stroke", "none")]),
  (".s6", [("color", "#000"), ("fill", "#ffffb4"), ("fill-opacity", "1"),
    ("fill-rule", "nonzero"), ("stroke", "none"), ("stroke-width", "1px"), ("marker", "none"),
    ("visibility", "visible"), ("display", "inline"), ("overflow", "visible"),
    ("enable-background", "accumulate")]),
  (".s7", [("color", "#000"), ("fill", "#ffe0b9"), ("fill-opacity", "1"),
    ("fill-rule", "nonzero"), ("stroke", "none"), ("stroke-width", "1px"), ("marker", "none"),
    ("visibility", "visible"), ("display", "inline"), ("overflow", "visible"),
    ("enable-background", "accumulate")]),
  (".s8", [("color", "#000"), ("fill", "#b9e0ff"), ("fill-opacity", "1"),
    ("fill-rule", "nonzero"), ("stroke", "none"), ("stroke-width", "1px"), ("marker", "none"),
    ("visibility", "visible"), ("display", "inline"), ("overflow", "visible"),
    ("enable-background", "accumulate")]),
  (".s9", [("fill", "#000"), ("fill-opacity", "1"), ("stroke", "none")]),
  (".s10", [("color", "#000"), ("fill", "#fff"), ("fill-opacity", "1"), ("fill-rule", "nonzero"),
    ("stroke", "none"), ("stroke-width", "1px"), ("marker", "none"), ("visibility", "visible"),
    ("display", "inline"), ("overflow", "visible"), ("enable-background", "accumulate")]),
  (".s11", [("fill", "#0041c4"), ("fill-opacity", "1"), ("stroke", "none")]),
  (".s12", [("fill", "none"), ("stroke", "#0041c4"), ("stroke-width", "1"),
    ("stroke-linecap", "round"), ("stroke-linejoin", "miter"), ("stroke-miterlimit", "4"),
    ("stroke-opacity", "1"), ("stroke-dasharray", "none")])]

def default : Skin := { name := "default", cell := ⟨20, 20, 6, 15⟩, rules := defaultRules }

-- There is one skin; every other name stands for it as well.
def lookup (_name : String) : Skin := default

def style (skin : Skin) : String := String.join (skin.rules.map StyleRule.text)

-- An arrow that a path can carry at an end.
def marker (id viewBox refX path : String) : Element :=
  { tag := "marker"
    attrs := [("id", id), ("style", "fill:#0041c4"), ("markerHeight", "7"), ("markerWidth", "10"),
      ("markerUnits", "strokeWidth"), ("viewBox", viewBox), ("refX", refX), ("refY", "0"),
      ("orient", "auto")]
    children := [.element "path" [("d", path)] []] }

def markers (_skin : Skin) : List Element :=
  [marker "arrowhead" "0 -4 11 8" "15" "M0 -4 11 0 0 4z",
    marker "arrowtail" "-11 -4 11 8" "-15" "M0 -4 -11 0 0 4z"]

end Skin

end TimingDiagram
