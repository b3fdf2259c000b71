import TimingDiagram.Command.Run

namespace TimingDiagram

namespace FileError

def ofError : IO.Error → FileError
  | .noFileOrDirectory _ _ _ => .notFound
  | .inappropriateType _ _ details =>
    if details.toLower = "is a directory" then .isDirectory else .notDirectory
  | .invalidArgument _ 36 _ => .nameTooLong
  | e => .other (toString e)

end FileError

-- Runs an operation on the file of a path and keeps its error.
def attempt {α : Type} (path : String) (operation : IO α) : IO (Except FileError α) := do
  match checkPath path with
  | .error e => return .error e
  | .ok () =>
    try return .ok (← operation)
    catch e => return .error (.ofError e)

instance : Files IO where
  isPresent path := do
    if path.isEmpty || !(checkPath path).isOk then return false
    ((← IO.currentDir) / path).pathExists
  readText path := do
    match ← attempt path (IO.FS.readBinFile path) with
    | .error e => return .error e
    | .ok content =>
      match String.fromUTF8? content with
      | some text => return .ok text
      | none => return .error .notText
  writeText path text := attempt path (IO.FS.writeFile path text)

namespace Command

-- The path of the user's settings below the directory for settings or the home directory.
def userSettings : IO (Option String) := do
  match ← IO.getEnv "XDG_CONFIG_HOME", ← IO.getEnv "HOME" with
  | some settings, home =>
    if settings.startsWith "/" then return some (settings ++ "/wavelane/config.toml")
    return home.map (· ++ "/.config/wavelane/config.toml")
  | none, home => return home.map (· ++ "/.config/wavelane/config.toml")

def usageText : String :=
  "Usage: wavelane [OPTIONS] --output <OUTPUT> <INPUT>\n\n"
    ++ "Arguments:\n"
    ++ "  <INPUT>  Path to the input file\n\n"
    ++ "Options:\n"
    ++ "  -o, --output <OUTPUT>        Path to the output SVG file\n"
    ++ "  -c, --config <CONFIG>        Path to configuration file (TOML)\n"
    ++ "      --log-level <LOG_LEVEL>  Log level (off, error, warn, info, debug, trace)\n"
    ++ "  -h, --help                   Print help\n"
    ++ "  -V, --version                Print version"

def versionText : String := "wavelane 0.1.0"

def reportText (r : Report) : String :=
  let help : String :=
    match r.help with
    | some help => "\n  help: " ++ help
    | none => ""
  r.code ++ ": " ++ r.message ++ String.join (r.labels.map ("\n  " ++ ·.text)) ++ help

-- Runs the program and shows what it has to say.
def start (args : List String) : IO UInt32 := do
  let outcome ← call args (← userSettings)
  match outcome.usage with
  | some .help => IO.println usageText
  | some .version => IO.println versionText
  | some _ => IO.eprintln usageText
  | none => pure ()
  for notice in outcome.notice do IO.eprintln notice
  for report in outcome.reports do IO.eprintln (reportText report)
  match outcome.crash with
  | some reason => IO.eprintln reason.message
  | none => pure ()
  return outcome.status.toUInt32

end Command

end TimingDiagram

def main (args : List String) : IO UInt32 := TimingDiagram.Command.start args
