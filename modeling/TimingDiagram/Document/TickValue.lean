import TimingDiagram.Diagram.Basic
import TimingDiagram.Document.Markup
import TimingDiagram.Number.Read
import TimingDiagram.Text.Classes

namespace TimingDiagram.Document

-- The whole number that a sequence of labels starts with.
def sequence (x : Float) : Ticks := .sequence (saturate (truncate x))

-- The number of digits behind the point of a number that is written out in full.
def places (x : Float) : Nat := ((plainText x).toList.dropWhile (· ≠ '.')).length - 1

-- The number that a value stands for, or that its text reads as.
def numeric? : Json → Option Float
  | .number n => some n.toFloat
  | .string s => readFloat? (Text.trim s)
  | _ => none

def literal? (items : List Json) : Option Ticks := (items.mapM scalarText?).map .literal

-- One number starts a sequence, two numbers are an offset and a step, and everything else is a
-- list of labels.
def listTicks? : List Json → Option Ticks
  | [] => none
  | [.number n] => some (sequence n.toFloat)
  | [offset, step] =>
    match numeric? offset, numeric? step with
    | some offset, some step => some (.stepped (truncate offset) step (places step))
    | _, _ => literal? [offset, step]
  | items => literal? items

-- The labels that a value describes: a number, a numeric text, a text of labels, or a list.
def ticks? : Json → Option Ticks
  | .number n => some (sequence n.toFloat)
  | .string s =>
    match readFloat? (Text.trim s) with
    | some x => some (sequence x)
    | none => if (Text.words s).isEmpty then none else some (.literal (Text.words s))
  | .array items => listTicks? items
  | _ => none

def ticks (path : Path) (value : Json) : Noted (Option Ticks) :=
  match ticks? value with
  | some t => pure (some t)
  | none => do
    Noted.note (.noLabels path value)
    return none

end TimingDiagram.Document
