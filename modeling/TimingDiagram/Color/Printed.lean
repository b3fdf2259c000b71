import TimingDiagram.Color.Basic
import TimingDiagram.Number.Printed

namespace TimingDiagram

namespace Color

def least (x y : Float32) : Float32 := if x < y then x else y

-- The lightness of one of the primary colours, whose place on a circle of twelve hours is `place`.
def primary (hue saturation lightness place : Float32) : Float32 :=
  let light := lightness * 0.01
  let chroma := saturation * 0.01 * least light (1.0 - light)
  let x := place + hue * (1.0 / 30.0)
  let hour := x - 12.0 * (x * (1.0 / 12.0)).floor
  let ramp := least (hour - 3.0) (9.0 - hour)
  let level := if ramp < -1.0 then -1.0 else if 1.0 < ramp then 1.0 else ramp
  light - chroma * level

-- The part of red, green and blue in a colour given by hue, saturation and lightness.
def rgbOfHsl (hue saturation lightness : Float32) : Float32 × Float32 × Float32 :=
  (primary hue saturation lightness 0.0, primary hue saturation lightness 8.0,
    primary hue saturation lightness 4.0)

-- The part of red, green and blue in a pure hue that is mixed with white and black. Where these
-- fill the whole colour, nothing is left of the hue.
def rgbOfHwb (hue white black : Float32) : Float32 × Float32 × Float32 :=
  let white := white * 0.01
  let black := black * 0.01
  if 1.0 ≤ white + black then
    let gray := white / (white + black)
    (gray, gray, gray)
  else
    let (r, g, b) := rgbOfHsl hue 100.0 50.0
    let mix (x : Float32) : Float32 := white + x * (1.0 - white - black)
    (mix r, mix g, mix b)

-- The components in another space, where only a missing opacity stays missing.
def convert (f : Float32 → Float32 → Float32 → Float32 × Float32 × Float32) (c : Components) :
    Components :=
  let (x, y, z) := f (c.first.getD 0.0) (c.second.getD 0.0) (c.third.getD 0.0)
  ⟨some x, some y, some z, c.alpha⟩

def componentText (scale : Float32) : Option Float32 → String
  | some x => plainText32 (x * scale)
  | none => "none"

def isOpaque (c : Components) : Bool := !decide (c.alpha.getD 0.0 < 1.0)

-- Arguments with commas between them. A colour that is not opaque has a function of its own.
def rgbText (c : Components) : String :=
  let scaled := [c.first, c.second, c.third].map (componentText 255.0)
  if isOpaque c then "rgb(" ++ ", ".intercalate scaled ++ ")"
  else "rgba(" ++ ", ".intercalate (scaled ++ [componentText 1.0 c.alpha]) ++ ")"

-- Arguments with blanks between them and the opacity behind a slash.
def argumentsText (c : Components) : String :=
  " ".intercalate ([c.first, c.second, c.third].map (componentText 1.0))
    ++ if isOpaque c then "" else " / " ++ componentText 1.0 c.alpha

end Color

def ColorSpace.name : ColorSpace → String
  | .srgb => "srgb"
  | .linearSrgb => "srgb-linear"
  | .displayP3 => "display-p3"
  | .a98Rgb => "a98-rgb"
  | .prophotoRgb => "prophoto-rgb"
  | .rec2020 => "rec2020"
  | .xyzD50 => "xyz-d50"
  | .xyzD65 => "xyz-d65"
  | .lab => "lab"
  | .lch => "lch"
  | .oklab => "oklab"
  | .oklch => "oklch"
  | .hsl => "hsl"
  | .hwb => "hwb"

namespace Color

-- The text of a colour. What was given by hue is written by red, green and blue.
def text : Color → String
  | .named name => name
  | .inSpace space false c => "color(" ++ space.name ++ " " ++ argumentsText c ++ ")"
  | .inSpace .srgb true c => rgbText c
  | .inSpace .hsl true c => rgbText (convert rgbOfHsl c)
  | .inSpace .hwb true c => rgbText (convert rgbOfHwb c)
  | .inSpace space true c => space.name ++ "(" ++ argumentsText c ++ ")"

-- A table that finds colours by their texts holds one entry for two colours if they are equal and
-- have the same text.
def isSameKey (a b : Color) : Bool := a == b && a.text == b.text

end Color

end TimingDiagram
