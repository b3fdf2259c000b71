import TimingDiagram.Color.Reader
import TimingDiagram.Toml.Reader

namespace TimingDiagram

-- What a settings file can choose: strict drawings, a file of glyph definitions, and the colour
-- behind the drawing.
structure Settings where
  strict : Bool := false
  glyphFile : Option String := none
  background : Option String := none
deriving DecidableEq, Repr

namespace Settings

-- A setting that is absent keeps its default; one of another type makes the file unusable.
def flag? : Option Toml.Value → Option Bool
  | none => some false
  | some (.bool b) => some b
  | some _ => none

def text? : Option Toml.Value → Option (Option String)
  | none => some none
  | some (.string s) => some (some s)
  | some _ => none

-- A setting of a section, if it is there. A section is a table, or a list of its settings in their
-- order, or a date, which has none of them; anything else is no section.
def setting? (name : String) (position : Nat) : Option Toml.Value → Option (Option Toml.Value)
  | none => some none
  | some (.table _ entries) => some (entries.lookup name)
  | some (.array items) => some items[position]?
  | some (.date _) => some none
  | some _ => none

-- Whether an entry of a file can be read. Of a list that stands for a section only the settings
-- count.
def isReadable : String × Toml.Value → Bool
  | ("render", .array _) => true
  | ("style", .array _) => true
  | (_, value) => value.isReadable

-- The settings that a file describes. Other sections and entries are passed over, but must be
-- readable.
def ofTable? (root : Toml.Table) : Option Settings := do
  guard (root.all isReadable)
  let drawing := root.lookup "render"
  let style := root.lookup "style"
  let strict ← flag? (← setting? "strict" 0 drawing)
  let glyphFile ← text? (← setting? "skin_defs" 1 drawing)
  let background ← text? (← setting? "background_color" 0 style)
  return { strict, glyphFile, background }

def ofText? (text : String) : Option Settings := (Toml.parse? text).bind ofTable?

-- The colour behind the drawing, if one is chosen.
def backgroundColor (s : Settings) : Except Color.ReadError (Option Color) :=
  match s.background with
  | none => .ok none
  | some text => (Color.ofText? text).map some

end Settings

end TimingDiagram
