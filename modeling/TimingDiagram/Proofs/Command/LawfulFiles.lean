import Mathlib.Tactic
import TimingDiagram.Command.FileTree

namespace TimingDiagram

-- What can be seen of files: where a path leads to, and what stands there.
class FileView (σ : Type) where
  Location : Type
  locate : σ → String → Option Location
  node : σ → Location → Option FileNode

namespace FileView

variable {σ : Type} [FileView σ]

-- A path leads to a file with a text.
def Holds (s : σ) (path text : String) : Prop :=
  ∃ location, locate s path = some location ∧ node s location = some (.file text.toUTF8)

-- Between two states nothing changed but what a path leads to. Every path that led anywhere still
-- leads there.
structure ChangedOnly (s s' : σ) (path : String) : Prop where
  locate_eq : ∀ other location, locate s other = some location → locate s' other = some location
  node_eq : ∀ location, locate s' path ≠ some location → node s' location = node s location

-- What another path leads to stays as it was.
theorem ChangedOnly.holds {s s' : σ} {path other text : String} (h : ChangedOnly s s' path)
    (hother : Holds s other text) (hne : locate s' path ≠ locate s' other) :
    Holds s' other text := by
  obtain ⟨location, hlocate, hnode⟩ := hother
  have hlocate' := h.locate_eq other location hlocate
  refine ⟨location, hlocate', ?_⟩
  rw [h.node_eq location (hlocate' ▸ hne), hnode]

end FileView

namespace Files

variable {σ : Type} [Files (StateM σ)]

-- What the operations answer in a state.
def presentIn (s : σ) (path : String) : Bool := ((isPresent path : StateM σ Bool).run s).1

def textIn (s : σ) (path : String) : Except FileError String :=
  ((readText path : StateM σ (Except FileError String)).run s).1

def writtenIn (s : σ) (path text : String) : Except FileError Unit × σ :=
  (writeText path text : StateM σ (Except FileError Unit)).run s

end Files

-- The file operations do what they are meant to do: those that only look change nothing, reading
-- gives the text that a path holds, writing makes a path hold a text and changes nothing else, and
-- writing that fails changes nothing.
class LawfulFiles (σ : Type) [FileView σ] [Files (StateM σ)] : Prop where
  isPresent_state : ∀ (s : σ) path, ((Files.isPresent path : StateM σ Bool).run s).2 = s
  readText_state : ∀ (s : σ) path,
    ((Files.readText path : StateM σ (Except FileError String)).run s).2 = s
  readText_ok : ∀ {s : σ} {path text},
    Files.textIn s path = .ok text → FileView.Holds s path text
  writeText_ok : ∀ {s s' : σ} {path text}, Files.writtenIn s path text = (.ok (), s') →
    FileView.Holds s' path text ∧ FileView.ChangedOnly s s' path
  writeText_error : ∀ {s s' : σ} {path text e},
    Files.writtenIn s path text = (.error e, s') → s' = s

end TimingDiagram
