import TimingDiagram.Document.Diagnostic
import TimingDiagram.Document.Json.Printer
import TimingDiagram.Document.Json.Reader

namespace TimingDiagram

-- A step down into a document: to a member of an object or to an item of a list.
inductive Step where
  | member (name : String)
  | item (i : Nat)
deriving DecidableEq, Repr

-- The way from the root of a document to one of its values.
abbrev Path := List Step

namespace Path

def stepText (first : Bool) : Step → String
  | .member name => if first then name else "." ++ name
  | .item i => s!"[{i}]"

def text : Path → String
  | [] => ""
  | s :: rest => stepText true s ++ String.join (rest.map (stepText false))

def quoted (p : Path) : String := "`" ++ p.text ++ "`"

end Path

-- What can be wrong with the markup of a caption.
inductive MarkupFault where
  | notList | noTag | attribute (name : String) | child
deriving DecidableEq, Repr

def MarkupFault.message : MarkupFault → String
  | .notList => "a JsonML node must be a list"
  | .noTag => "a JsonML node must start with a tag name"
  | .attribute name => "attribute `" ++ name ++ "` must be a string or number"
  | .child => "JsonML children must be text or nodes"

-- What a value was expected to be.
inductive Expected where
  | list | string | number | object | stringList | stringOrList | captionForm
deriving DecidableEq, Repr

def Expected.text : Expected → String
  | .list => "a list"
  | .string => "a string"
  | .number => "a number"
  | .object => "an object"
  | .stringList => "a list of strings"
  | .stringOrList => "a string or a list of strings"
  | .captionForm => "a string or JsonML list"

-- A problem of a document. Most name the value they are about by its path.
inductive Problem where
  | unreadable (source : String) (error : Document.Json.ReadError)
  | notObject
  | missingSignal
  | unsupportedDiagram (kind : String)
  | wrongType (path : Path) (expected : Expected)
  | notPositive (path : Path)
  | malformedEdge (path : Path) (text : String)
  | malformedMarkup (path : Path) (fault : MarkupFault)
  | scaleIgnored (path : Path) (scale : Float)
  | scaleCapped (path : Path) (cap : Nat)
  | unsupportedSetting (path : Path)
  | periodCapped (path : Path) (cap : Float)
  | noLabels (path : Path) (value : Document.Json)
  | unknownConnector (path : Path) (text : String)
deriving Repr

namespace Problem

def kind : Problem → ProblemKind
  | .unreadable _ e => if e.fault.isEnd then .unexpectedEnd else .invalidText
  | .notObject => .notObject
  | .missingSignal => .missingSignal
  | .unsupportedDiagram _ => .unsupportedDiagram
  | .wrongType _ _ => .wrongType
  | .notPositive _ => .wrongValue
  | .malformedEdge _ _ => .malformedEdge
  | .malformedMarkup _ _ => .malformedMarkup
  | .scaleIgnored _ _ => .settingAdjusted
  | .scaleCapped _ _ => .settingAdjusted
  | .unsupportedSetting _ => .settingAdjusted
  | .periodCapped _ _ => .laneAdjusted
  | .noLabels _ _ => .labelsSkipped
  | .unknownConnector _ _ => .unknownConnector

-- The path of the value a problem is about.
def path? : Problem → Option Path
  | .wrongType p _ | .notPositive p | .malformedEdge p _ | .malformedMarkup p _ | .scaleIgnored p _
  | .scaleCapped p _ | .unsupportedSetting p | .periodCapped p _ | .noLabels p _
  | .unknownConnector p _ => some p
  | _ => none

def message : Problem → String
  | .unreadable _ e => if e.fault.isEnd then "unexpected end of input" else "invalid JSON"
  | .notObject => "a diagram must be a JSON object"
  | .missingSignal => "the diagram has no `signal` list"
  | .unsupportedDiagram kind => "`" ++ kind ++ "` diagrams are not supported"
  | .wrongType p expected => p.quoted ++ " must be " ++ expected.text
  | .notPositive p => p.quoted ++ " must be positive"
  | .malformedEdge p text => p.quoted ++ " is not an edge: `" ++ text ++ "`"
  | .malformedMarkup p _ => "malformed rich text in " ++ p.quoted
  | .scaleIgnored p scale =>
    p.quoted ++ " of " ++ plainText scale ++ " is ignored, it must be at least 1"
  | .scaleCapped p cap => p.quoted ++ s!" is capped at {cap}"
  | .unsupportedSetting p => p.quoted ++ " is not supported and is ignored"
  | .periodCapped p cap => p.quoted ++ " is capped at " ++ plainText cap
  | .noLabels p value => p.quoted ++ " produces no labels and is skipped: " ++ value.text
  | .unknownConnector p text =>
    p.quoted ++ " uses unknown connector `" ++ text ++ "`, drawing a straight line"

def help : Problem → Option String
  | .notObject => some "wrap the signal list as `\x7b \"signal\": [...] \x7d`"
  | .missingSignal => some
      "add a list of lanes, e.g. `\"signal\": [\x7b\"name\": \"clk\", \"wave\": \"p...\"\x7d]`"
  | .unsupportedDiagram _ => some "only `signal` timing diagrams can be rendered"
  | .malformedEdge _ _ => some "edges are written as `<from><shape><to> [label]`, e.g. `a~>b`"
  | .malformedMarkup _ fault => some fault.message
  | .unknownConnector _ _ =>
    some "connectors combine `-`, `~` and `|`, optionally between `<` and `>`"
  | _ => none

-- Only a text that cannot be read knows the place that is at fault.
def label : Problem → Option SourceLabel
  | .unreadable source e =>
    let (line, column) := Span.lineColumn source e.offset
    some ⟨Span.atLineColumn source line column,
      e.fault.message ++ s!" at line {line} column {column}"⟩
  | _ => none

def diagnostic (p : Problem) : Diagnostic := ⟨p.kind, p.message, p.label, p.help⟩

def isError (p : Problem) : Bool := p.kind.severity == .error

end Problem

-- A value together with the problems that were met on the way to it, in their order.
structure Noted (α : Type) where
  value : α
  problems : List Problem

namespace Noted

instance : Monad Noted where
  pure a := ⟨a, []⟩
  bind x f :=
    let y := f x.value
    ⟨y.value, x.problems ++ y.problems⟩

def note (p : Problem) : Noted Unit := ⟨(), [p]⟩

def noteIf (condition : Prop) [Decidable condition] (p : Problem) : Noted Unit :=
  ⟨(), if condition then [p] else []⟩

end Noted

end TimingDiagram
