import TimingDiagram.Wave.Symbol

namespace TimingDiagram

-- One symbol of a wave with the markers that prolong it. `previous` is the symbol it follows, if
-- an edge is to be drawn between the two; `short` says that the cycles last half as long.
structure Event where
  previous : Option Symbol
  symbol : Symbol
  repeats : Nat
  short : Bool
deriving DecidableEq, Repr

namespace Event

-- The number of cycles: the symbol itself and its markers.
def cycles (e : Event) : Nat := e.repeats + 1

end Event

namespace Wave

-- A marker prolongs the symbol before it.
def isMarker (c : Char) : Bool := c == '.' || c == '|'

-- A bracket opens or closes a stretch of short cycles.
def isBracket (c : Char) : Bool := c == '<' || c == '>'

def leadingMarkers (cs : List Char) : Nat := (cs.takeWhile isMarker).length

-- The events of the rest of a wave, given the current symbol and whether cycles are short. Each
-- event counts the markers behind it, which are then passed over. A bracket draws the current
-- symbol again, without an edge, when a marker stands right behind it.
def eventsFrom (current : Option Symbol) (short : Bool) : List Char → List Event
  | [] => []
  | c :: rest =>
    if isMarker c then eventsFrom current short rest
    else if isBracket c then
      let short := c == '<'
      match current, leadingMarkers rest with
      | some s, n + 1 => ⟨none, s, n, short⟩ :: eventsFrom current short rest
      | _, _ => eventsFrom current short rest
    else
      let s := Symbol.ofChar c
      ⟨current, s, leadingMarkers rest, short⟩ :: eventsFrom (some s) short rest

-- A marker with nothing before it is a symbol of its own, the unknown level.
def openingSymbol : List Char → List Char
  | c :: rest => (if isMarker c then 'x' else c) :: rest
  | [] => []

def events (wave : String) : List Event := eventsFrom none false (openingSymbol wave.toList)

end Wave

end TimingDiagram
