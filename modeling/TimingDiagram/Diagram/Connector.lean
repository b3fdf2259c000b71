namespace TimingDiagram

-- The course of a connector: straight, curved at both ends, at the start or at the end only,
-- across and then down, down and then across, or across in two halves with a step between.
inductive Course where
  | straight | curve | curveOut | curveIn | acrossDown | downAcross | step
deriving DecidableEq, Repr

def Course.text : Course → String
  | .straight => "-"
  | .curve => "~"
  | .curveOut => "-~"
  | .curveIn => "~-"
  | .acrossDown => "-|"
  | .downAcross => "|-"
  | .step => "-|-"

-- The ends of a connector that carry an arrowhead.
inductive Heads where
  | none | target | both
deriving DecidableEq, Repr

structure Connector where
  course : Course := .straight
  heads : Heads := .none
deriving DecidableEq, Repr

namespace Connector

def text (c : Connector) : String :=
  match c.heads with
  | .none => c.course.text
  | .target => c.course.text ++ ">"
  | .both => "<" ++ c.course.text ++ ">"

-- Every course can have a head at its target, but only some have heads at both ends.
def all : List Connector :=
  [.straight, .curve, .curveOut, .curveIn, .acrossDown, .downAcross, .step].flatMap
      (fun course => [⟨course, .none⟩, ⟨course, .target⟩])
    ++ [.straight, .curve, .curveOut, .acrossDown, .step].map fun course => ⟨course, .both⟩

-- Reads the text of a connector.
def ofText? (s : String) : Option Connector := all.find? fun c => c.text == s

end Connector

-- A connector between two named events.
structure Edge where
  source : Char
  target : Char
  connector : Connector := {}
  label : Option String := none
deriving Repr

end TimingDiagram
