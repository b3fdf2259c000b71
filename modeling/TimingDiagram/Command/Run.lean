import TimingDiagram.Color.Printed
import TimingDiagram.Command.Arguments
import TimingDiagram.Command.Failure
import TimingDiagram.Command.Settings
import TimingDiagram.Document.Load
import TimingDiagram.Drawing.Page
import TimingDiagram.Markup.Svg

namespace TimingDiagram

namespace Settings

variable {m : Type → Type} [Monad m] [Files m]

-- A file operation whose error is the failure of the run.
def needed {α : Type} (operation : m (Except FileError α)) : ExceptT Failure m α := do
  match ← operation with
  | .ok a => return a
  | .error e => throw (.file e)

def isPresent (path : String) : ExceptT Failure m Bool := ExceptT.lift (Files.isPresent path)

def readFrom (path : String) : ExceptT Failure m Settings := do
  if ← isPresent path then
    match ofText? (← needed (Files.readText path)) with
    | some settings => return settings
    | none => throw (.settings (.malformed path))
  else throw (.settings (.missingFile path))

-- The settings file of a working directory.
def localPath : String := "wavelane/config.toml"

-- The settings of the file that is named, or else of the working directory's file, or else of the
-- user's file, or else the defaults.
def choose (named user : Option String) : ExceptT Failure m Settings := do
  match named with
  | some path => readFrom path
  | none =>
    if ← isPresent localPath then readFrom localPath
    else
      match user with
      | none => return {}
      | some path => if ← isPresent path then readFrom path else return {}

end Settings

namespace Command

variable {m : Type → Type} [Monad m] [Files m]

-- The text of a file of glyph definitions, if one is chosen.
def readGlyphs (settings : Settings) : ExceptT Failure m (Option String) := do
  match settings.glyphFile with
  | none => return none
  | some path => return some (← Settings.needed (Files.readText path))

-- The drawing of a diagram as number `index` of a page.
def draw (settings : Settings) (d : Diagram) (index : Nat) : ExceptT Failure m String := do
  match settings.backgroundColor with
  | .error e => throw (.settings (.background e))
  | .ok background =>
    let glyphs ← readGlyphs settings
    match d.draw { strict := settings.strict, glyphs } index with
    | .ok root => return Svg.document (background.map Color.text) root
    | .error e => throw (.drawing e)

-- The diagram of a document, whose warnings are passed over.
def parse (source : String) : ExceptT Failure m Diagram := do
  match Document.load source with
  | .ok loaded => return loaded.diagram
  | .error problems => throw (.document problems)

-- Reads the document, draws it, and writes the drawing. `user` is the path of the user's settings.
def run (args : Arguments) (user : Option String) : ExceptT Failure m Unit := do
  let settings ← Settings.choose args.settings user
  let source ← Settings.needed (Files.readText args.input)
  let d ← parse source
  let drawing ← draw settings d 0
  Settings.needed (Files.writeText args.output drawing)

-- The names of the amounts of logging, in any case.
def logLevels : List String := ["off", "error", "warn", "info", "debug", "trace"]

-- What is said about an amount of logging that does not exist.
def logNotice (level : String) : Option String :=
  if logLevels.contains level.toLower then none
  else some ("Invalid log level: " ++ level ++ ". Using 'warn' instead.")

-- What a call of the program comes to: its exit status, a notice about the log level, and the
-- reports of what went wrong, or what kept it from running or from finishing.
structure Outcome where
  status : Nat
  notice : Option String := none
  usage : Option UsageError := none
  reports : List Report := []
  crash : Option Overflow := none
deriving Repr

-- The exit status of a run that fails.
def failureStatus (failure : Failure) : Nat := if failure.crash?.isSome then 101 else 1

-- Runs the program. Asking for help or the version is no failure.
def call (args : List String) (user : Option String) : m Outcome := do
  match Arguments.ofList? args with
  | .error e => return { status := if e.isRequest then 0 else 2, usage := some e }
  | .ok args =>
    let notice := logNotice args.logLevel
    match ← (run args user).run with
    | .ok () => return { status := 0, notice }
    | .error failure =>
      return { status := failureStatus failure, notice, reports := failure.reports,
               crash := failure.crash? }

end Command

end TimingDiagram
