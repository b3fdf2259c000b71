namespace TimingDiagram

-- The spaces in which a colour can be given.
inductive ColorSpace where
  | srgb | linearSrgb | displayP3 | a98Rgb | prophotoRgb | rec2020 | xyzD50 | xyzD65
  | lab | lch | oklab | oklch | hsl | hwb
deriving DecidableEq, Repr

-- Three components and the opacity, each of which may be missing.
structure Components where
  first : Option Float32
  second : Option Float32
  third : Option Float32
  alpha : Option Float32
deriving BEq, Repr

-- A colour that is known by its name, or one that is given by its components in a space. A space
-- can have a function of its own, `rgb` or `lab`, or be named by the common function `color`.
inductive Color where
  | named (name : String)
  | inSpace (space : ColorSpace) (ownFunction : Bool) (components : Components)
deriving BEq, Repr

namespace Color

def white : Color := .named "white"

-- The names that colours can have, in lower case.
def names : List String := [
  "aliceblue", "antiquewhite", "aqua", "aquamarine", "azure", "beige", "bisque", "black",
  "blanchedalmond", "blue", "blueviolet", "brown", "burlywood", "cadetblue", "chartreuse",
  "chocolate", "coral", "cornflowerblue", "cornsilk", "crimson", "cyan", "darkblue", "darkcyan",
  "darkgoldenrod", "darkgray", "darkgreen", "darkkhaki", "darkmagenta", "darkolivegreen",
  "darkorange", "darkorchid", "darkred", "darksalmon", "darkseagreen", "darkslateblue",
  "darkslategray", "darkturquoise", "darkviolet", "deeppink", "deepskyblue", "dimgray",
  "dodgerblue", "firebrick", "floralwhite", "forestgreen", "fuchsia", "gainsboro", "ghostwhite",
  "gold", "goldenrod", "gray", "green", "greenyellow", "honeydew", "hotpink", "indianred", "indigo",
  "ivory", "khaki", "lavender", "lavenderblush", "lawngreen", "lemonchiffon", "lightblue",
  "lightcoral", "lightcyan", "lightgoldenrodyellow", "lightgray", "lightgreen", "lightpink",
  "lightsalmon", "lightseagreen", "lightskyblue", "lightslategray", "lightsteelblue", "lightyellow",
  "lime", "limegreen", "linen", "magenta", "maroon", "mediumaquamarine", "mediumblue",
  "mediumorchid", "mediumpurple", "mediumseagreen", "mediumslateblue", "mediumspringgreen",
  "mediumturquoise", "mediumvioletred", "midnightblue", "mintcream", "mistyrose", "moccasin",
  "navajowhite", "navy", "oldlace", "olive", "olivedrab", "orange", "orangered", "orchid",
  "palegoldenrod", "palegreen", "paleturquoise", "palevioletred", "papayawhip", "peachpuff", "peru",
  "pink", "plum", "powderblue", "purple", "rebeccapurple", "red", "rosybrown", "royalblue",
  "saddlebrown", "salmon", "sandybrown", "seagreen", "seashell", "sienna", "silver", "skyblue",
  "slateblue", "slategray", "snow", "springgreen", "steelblue", "tan", "teal", "thistle", "tomato",
  "transparent", "turquoise", "violet", "wheat", "white", "whitesmoke", "yellow", "yellowgreen"]

-- The opacity, from 0 to 1. A missing one counts as 0.
def alpha : Color → Float32
  | .named name => if name = "transparent" then 0.0 else 1.0
  | .inSpace _ _ c => c.alpha.getD 0.0

end Color

end TimingDiagram
