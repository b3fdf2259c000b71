import TimingDiagram.Document.Span

namespace TimingDiagram

inductive Severity where
  | error | warning
deriving DecidableEq, Repr

def Severity.name : Severity → String
  | .error => "error"
  | .warning => "warning"

-- The kinds of problems a document can have.
inductive ProblemKind where
  | invalidText | unexpectedEnd
  | notObject | missingSignal | unsupportedDiagram | wrongType | wrongValue
  | malformedEdge | malformedMarkup
  | settingAdjusted | laneAdjusted | labelsSkipped | unknownConnector
deriving DecidableEq, Repr

namespace ProblemKind

def all : List ProblemKind :=
  [.invalidText, .unexpectedEnd, .notObject, .missingSignal, .unsupportedDiagram, .wrongType,
    .wrongValue, .malformedEdge, .malformedMarkup, .settingAdjusted, .laneAdjusted, .labelsSkipped,
    .unknownConnector]

def code : ProblemKind → String
  | .invalidText => "E001"
  | .unexpectedEnd => "E002"
  | .notObject => "E100"
  | .missingSignal => "E101"
  | .unsupportedDiagram => "E102"
  | .wrongType => "E103"
  | .wrongValue => "E104"
  | .malformedEdge => "E200"
  | .malformedMarkup => "E201"
  | .settingAdjusted => "W100"
  | .laneAdjusted => "W101"
  | .labelsSkipped => "W102"
  | .unknownConnector => "W200"

def ofCode? (code : String) : Option ProblemKind := all.find? fun k => k.code == code

-- A problem that was skipped over or adjusted only warns; any other one keeps the document from
-- loading.
def severity : ProblemKind → Severity
  | .settingAdjusted | .laneAdjusted | .labelsSkipped | .unknownConnector => .warning
  | _ => .error

def description : ProblemKind → String
  | .invalidText => "invalid JSON"
  | .unexpectedEnd => "unexpected end of input"
  | .notObject => "document is not an object"
  | .missingSignal => "missing signal list"
  | .unsupportedDiagram => "unsupported diagram kind"
  | .wrongType => "invalid field type"
  | .wrongValue => "invalid field value"
  | .malformedEdge => "malformed edge"
  | .malformedMarkup => "malformed rich text"
  | .settingAdjusted => "config setting adjusted"
  | .laneAdjusted => "lane setting adjusted"
  | .labelsSkipped => "axis labels skipped"
  | .unknownConnector => "unknown arc shape"

end ProblemKind

-- A text about a part of the source.
structure SourceLabel where
  span : Span
  text : String
deriving Repr

-- A problem as it is reported.
structure Diagnostic where
  kind : ProblemKind
  message : String
  label : Option SourceLabel := none
  help : Option String := none
deriving Repr

namespace Diagnostic

def severity (d : Diagnostic) : Severity := d.kind.severity

def isError (d : Diagnostic) : Bool := d.severity == .error

-- The severity, the code and the message.
def headline (d : Diagnostic) : String :=
  d.severity.name ++ "[" ++ d.kind.code ++ "]: " ++ d.message

-- The first of several errors and how many more there are.
def summary : List Diagnostic → String
  | [] => "document could not be loaded"
  | [d] => d.headline
  | [d, _] => d.headline ++ " (and 1 more error)"
  | d :: rest => d.headline ++ s!" (and {rest.length} more errors)"

end Diagnostic

end TimingDiagram
