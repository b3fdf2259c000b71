import TimingDiagram.Proofs.Wave.Events
import TimingDiagram.Proofs.Wave.Endings
import TimingDiagram.Proofs.Wave.Shift

namespace TimingDiagram

namespace Wave

-- The half cycles that one character stands for.
def cycleHalves (short : Bool) : Nat := if short then 1 else 2

-- What the current symbol means for `count` half cycles from the given one on; nothing, as long
-- as there is no symbol.
def halves (current : Option Symbol) (half count : Nat) : List (Level × Option DataIndex) :=
  match current with
  | none => []
  | some s => (List.range count).map fun i => s.meaning (half + i)

-- Reads the rest of a wave half cycle by half cycle. Kept on the way are the current symbol,
-- whether the last bracket opened short cycles, and the half cycles since the drawing of the
-- symbol started over.
def readFrom (current : Option Symbol) (short : Bool) (half : Nat) :
    List Char → List (Level × Option DataIndex)
  | [] => []
  | c :: rest =>
    if isBracket c then
      readFrom current (c == '<') (if rest.head?.any isMarker then 0 else half) rest
    else if isMarker c then
      halves current half (cycleHalves short) ++
        readFrom current short (half + cycleHalves short) rest
    else
      halves (some (Symbol.ofChar c)) 0 (cycleHalves short) ++
        readFrom (some (Symbol.ofChar c)) short (cycleHalves short) rest

-- What a wave says, one item for each half cycle. A marker in front is the unknown level.
def reading (wave : String) : List (Level × Option DataIndex) :=
  match wave.toList with
  | [] => []
  | c :: rest =>
    if isMarker c then
      halves (some (.level .unknown)) 0 2 ++ readFrom (some (.level .unknown)) false 2 rest
    else readFrom none false 0 (c :: rest)

@[simp] theorem halves_none (half count : Nat) : halves none half count = [] := rfl

@[simp] theorem halves_zero (current : Option Symbol) (half : Nat) :
    halves current half 0 = [] := by
  cases current <;> rfl

theorem halves_add (current : Option Symbol) (half count more : Nat) :
    halves current half (count + more) =
      halves current half count ++ halves current (half + count) more := by
  cases current with
  | none => rfl
  | some s =>
      simp only [halves, List.range_add, List.map_append, List.map_map]
      congr 1
      apply List.map_congr_left
      intro i _
      simp [Nat.add_assoc]

end Wave

namespace Event

-- What an event means, without the way it is drawn.
def meanings (e : Event) : List (Level × Option DataIndex) :=
  Wave.halves (some e.symbol) 0 e.halfCycles

theorem meanings_eq (e : Event) :
    e.meanings = (List.range e.halfCycles).map e.symbol.meaning := by
  simp [meanings, Wave.halves]

theorem halfCycles_eq (e : Event) : e.halfCycles = e.cycles * Wave.cycleHalves e.short := by
  unfold halfCycles Wave.cycleHalves
  split <;> omega

end Event

namespace Wave

-- Markers in front belong to the event before; what they mean comes first.
theorem readFrom_eq (current : Option Symbol) (short : Bool) (half : Nat) (cs : List Char) :
    readFrom current short half cs =
      halves current half (leadingMarkers cs * cycleHalves short) ++
        (eventsFrom current short cs).flatMap Event.meanings := by
  induction cs using chars_induction generalizing current short half with
  | nil => simp [readFrom]
  | marker c rest hc ih =>
      have hb := isBracket_eq_false_of_isMarker c hc
      have hn : (leadingMarkers rest + 1) * cycleHalves short =
          cycleHalves short + leadingMarkers rest * cycleHalves short := by
        rw [Nat.succ_mul, Nat.add_comm]
      rw [readFrom, if_neg (by simp [hb]), if_pos hc, ih, leadingMarkers_marker c rest hc,
        eventsFrom_marker current short c rest hc, hn, halves_add, List.append_assoc]
  | bracket c rest hc ih =>
      rw [readFrom, if_pos hc, ih, leadingMarkers_bracket c rest hc,
        eventsFrom_bracket current short c rest hc, Nat.zero_mul, halves_zero, List.nil_append,
        List.flatMap_append]
      congr 1
      cases hm : leadingMarkers rest with
      | zero => simp
      | succ n =>
          have hh : rest.head?.any isMarker = true := (head_isMarker_iff rest).mpr (by omega)
          cases current with
          | none => simp
          | some s => simp [hh, Event.meanings, Event.halfCycles_eq, Event.cycles]
  | symbol c rest hc ih =>
      rw [readFrom, if_neg (by simp [isBracket_eq_false_of_isSymbol c hc]),
        if_neg (by simp [isMarker_eq_false_of_isSymbol c hc]), ih,
        leadingMarkers_symbol c rest hc, eventsFrom_symbol current short c rest hc, Nat.zero_mul,
        halves_zero, List.nil_append, List.flatMap_cons, ← List.append_assoc]
      congr 1
      have hn : (⟨current, Symbol.ofChar c, leadingMarkers rest, short⟩ : Event).halfCycles =
          cycleHalves short + leadingMarkers rest * cycleHalves short := by
        rw [Event.halfCycles_eq, Event.cycles, Nat.succ_mul, Nat.add_comm]
      rw [Event.meanings, hn, halves_add, Nat.zero_add]

theorem reading_eq (wave : String) : reading wave = (events wave).flatMap Event.meanings := by
  unfold reading events
  cases wave.toList with
  | nil => rfl
  | cons c rest =>
      by_cases hc : isMarker c
      · have hx : isSymbol 'x' := rfl
        have hs : Symbol.ofChar 'x' = .level .unknown := rfl
        have hr := readFrom_eq none false 0 ('x' :: rest)
        rw [leadingMarkers_symbol 'x' rest hx, Nat.zero_mul, halves_zero, List.nil_append] at hr
        simp only [hc, ite_true, openingSymbol]
        exact hr
      · have hr := readFrom_eq none false 0 (c :: rest)
        simp only [hc, openingSymbol]
        exact hr

-- Prolonged cells repeat the meaning of their half cycle.
theorem map_ending_unshifted (wave : String) (extra : Nat) :
    (unshifted wave (.extra extra)).map Brick.ending =
      (reading wave).flatMap (List.replicate (1 + extra)) := by
  rw [reading_eq, unshifted, List.map_flatMap, List.flatMap_assoc]
  apply List.flatMap_congr
  intro e _
  rw [Event.map_ending_bricks_extra, Event.meanings_eq]

-- The drawing of a lane that no phase shifts says what its wave says, half cycle by half cycle.
theorem map_ending_bricks (wave : String) (stretch phase : Float)
    (hs : (stretch == -0.5) = false) (hp : phase ≤ 0.0) :
    (bricks wave stretch phase).map Brick.ending =
      (reading wave).flatMap (List.replicate (1 + Stretch.cells stretch)) := by
  have hstretch : Stretch.of stretch = .extra (Stretch.cells stretch) := by
    rw [Stretch.of_eq, if_neg (Bool.eq_false_iff.mp hs)]
  rw [bricks, shifted_of_nonpos hp, hstretch, map_ending_unshifted]

-- A clock that is drawn again inside a bracket, at twice the length.
theorem map_ending_bricks_redrawn_clock :
    (bricks "p<.z>" (1.0 : Float) (0.0 : Float)).map Brick.ending =
      [(.high, none), (.high, none), (.low, none), (.low, none), (.high, none), (.high, none),
        (.highZ, none), (.highZ, none)] := by
  have hcells : Stretch.cells 1.0 = 1 := by
    rw [← Stretch.countUpTo_limit]
    rfl
  have h := map_ending_bricks "p<.z>" 1.0 0.0 rfl (by decide)
  rw [hcells] at h
  exact h

end Wave

end TimingDiagram
