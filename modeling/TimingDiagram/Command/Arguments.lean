namespace TimingDiagram

-- The arguments of a run: the document, the drawing to be written, a settings file, and how much
-- is logged.
structure Arguments where
  input : String
  output : String
  settings : Option String := none
  logLevel : String := "info"
deriving DecidableEq, Repr

-- Why arguments do not lead to a run.
inductive UsageError where
  | missingArgument | missingValue | repeatedOption | unknownArgument | unexpectedValue
  | help | version
deriving DecidableEq, Repr

-- Whether the arguments ask for a text rather than being wrong.
def UsageError.isRequest : UsageError → Bool
  | .help => true
  | .version => true
  | _ => false

namespace Arguments

-- The options that take a value.
inductive Key where
  | output | settings | logLevel
deriving DecidableEq, Repr

inductive Switch where
  | valued (key : Key)
  | request (answer : UsageError)
deriving DecidableEq, Repr

def ofLong? : String → Option Switch
  | "output" => some (.valued .output)
  | "config" => some (.valued .settings)
  | "log-level" => some (.valued .logLevel)
  | "help" => some (.request .help)
  | "version" => some (.request .version)
  | _ => none

def ofShort? : Char → Option Switch
  | 'o' => some (.valued .output)
  | 'c' => some (.valued .settings)
  | 'h' => some (.request .help)
  | 'V' => some (.request .version)
  | _ => none

-- What was read so far. The last option is entered only when the next one, another argument or the
-- end follows; until then it may still be without its value.
structure Progress where
  input : Option String := none
  values : List (Key × String) := []
  last : Option (Key × Option String) := none
deriving Repr

namespace Progress

-- Enters the last option.
def settle (p : Progress) : Except UsageError Progress :=
  match p.last with
  | none => .ok p
  | some (_, none) => .error .missingValue
  | some (key, some value) =>
    if (p.values.lookup key).isSome then .error .repeatedOption
    else .ok { p with values := (key, value) :: p.values, last := none }

-- Starts an option, whose value may come with it.
def start (p : Progress) (key : Key) (value : Option String) : Except UsageError Progress := do
  let p ← p.settle
  let p := { p with last := some (key, value) }
  if value.isSome then p.settle else .ok p

-- An option that is asked for its answer stops the reading.
def request (p : Progress) (answer : UsageError) : Except UsageError Progress := do
  let _ ← p.settle
  .error answer

-- An argument that is no option is the value of the last option or the document.
def place (p : Progress) (arg : String) : Except UsageError Progress :=
  match p.input with
  | some _ => .error .unknownArgument
  | none => do
    let p ← p.settle
    .ok { p with input := some arg }

def readLong (p : Progress) (cs : List Char) : Except UsageError Progress :=
  let value :=
    match cs.dropWhile (· ≠ '=') with
    | '=' :: value => some (String.ofList value)
    | _ => none
  match ofLong? (String.ofList (cs.takeWhile (· ≠ '='))) with
  | none => .error .unknownArgument
  | some (.valued key) => p.start key value
  | some (.request answer) => if value.isSome then .error .unexpectedValue else p.request answer

-- A value may follow a letter directly or behind an equals sign.
def readShort (p : Progress) (c : Char) (cs : List Char) : Except UsageError Progress :=
  match ofShort? c with
  | none => .error .unknownArgument
  | some (.request answer) => p.request answer
  | some (.valued key) =>
    match cs with
    | [] => p.start key none
    | '=' :: value => p.start key (some (String.ofList value))
    | value => p.start key (some (String.ofList value))

-- Reads an argument in front of any double dash. A dash alone is no option.
def read (p : Progress) (arg : String) : Except UsageError Progress :=
  match arg.toList with
  | '-' :: '-' :: cs => p.readLong cs
  | '-' :: c :: cs => p.readShort c cs
  | _ =>
    match p.last with
    | some (key, none) => .ok { p with last := some (key, some arg) }
    | _ => p.place arg

-- Reads all arguments. Behind a double dash there are no options.
def readAll (p : Progress) : List String → Except UsageError Progress
  | [] => p.settle
  | "--" :: rest => do (← rest.foldlM place p).settle
  | arg :: rest => do (← p.read arg).readAll rest

end Progress

def ofList? (args : List String) : Except UsageError Arguments := do
  let p ← Progress.readAll {} args
  match p.input, p.values.lookup .output with
  | some input, some output =>
    return {
      input
      output
      settings := p.values.lookup .settings
      logLevel := (p.values.lookup .logLevel).getD "info" }
  | _, _ => .error .missingArgument

end Arguments

end TimingDiagram
