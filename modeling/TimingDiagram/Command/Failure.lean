import TimingDiagram.Color.Reader
import TimingDiagram.Command.Files
import TimingDiagram.Document.Problem
import TimingDiagram.Drawing.Arcs

namespace TimingDiagram

-- What can be wrong with the settings of a run.
inductive SettingsError where
  | missingFile (path : String)
  | malformed (path : String)
  | background (error : Color.ReadError)
deriving Repr

def SettingsError.message : SettingsError → String
  | .missingFile path => "Missing configuration file: " ++ path
  | .malformed path => "Failed to parse TOML configuration: " ++ path
  | .background e => "Invalid background color in config: " ++ e.message

-- Why a run failed.
inductive Failure where
  | file (error : FileError)
  | settings (error : SettingsError)
  | document (problems : List Problem)
  | drawing (error : DrawingError)
deriving Repr

namespace Failure

def message : Failure → String
  | .file e => "I/O error: " ++ e.message
  | .settings e => "Configuration error: " ++ e.message
  | .document problems => Diagnostic.summary (problems.map Problem.diagnostic)
  | .drawing (.overflow reason) => reason.message
  | .drawing e => "Render error: " ++ e.message

-- Too large a number stops the program before it can report anything.
def crash? : Failure → Option Overflow
  | .drawing (.overflow reason) => some reason
  | _ => none

end Failure

-- A part of the source that a report points to.
structure ReportLabel where
  offset : Nat
  length : Nat
  text : String
deriving DecidableEq, Repr

-- A failure as it is shown.
structure Report where
  message : String
  code : String
  help : Option String := none
  labels : List ReportLabel := []
  hasSource : Bool := false
  cause : Option String := none
deriving DecidableEq, Repr

namespace Report

def ofDiagnostic (d : Diagnostic) : Report where
  message := d.message
  code := d.kind.code
  help := d.help
  labels := (d.label.map fun l => ⟨l.span.start, l.span.length, l.text⟩).toList
  hasSource := true

-- How a drawing that lacks an event can be mended.
def eventHelp (name : Char) : String :=
  "add `" ++ name.toString ++ "` to the `node` string of the lane where the event happens"

end Report

-- Every problem of a document has a report of its own, and any other failure one; a crash has none.
def Failure.reports : Failure → List Report
  | .document problems => problems.map fun p => Report.ofDiagnostic p.diagnostic
  | .file e =>
    [{ message := (Failure.file e).message, code := "wavelane::io", cause := some e.message }]
  | .settings e =>
    [{ message := (Failure.settings e).message, code := "wavelane::config" }]
  | .drawing (.undefinedEvent name) =>
    let e := DrawingError.undefinedEvent name
    [{ message := (Failure.drawing e).message, code := "wavelane::render"
       help := some (Report.eventHelp name), cause := some e.message }]
  | .drawing (.overflow _) => []

end TimingDiagram
