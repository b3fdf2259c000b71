import TimingDiagram.Proofs.Drawing.Grid
import TimingDiagram.Proofs.Drawing.NamedEvents

namespace TimingDiagram

open Wave (isBracket shortAfter cycleHalves span)

theorem truncated_whole {x : ℚ} (n : ℕ) [n.AtLeastTwo] (h : x = n) :
    Scalar.truncated x = (OfNat.ofNat n : ℚ) := by
  rw [h, ← Int.cast_natCast, truncated_intCast]
  rfl

namespace Wave

-- The characters of a text that take a short cycle.
def shortCycles (short : Bool) : List Char → ℕ
  | [] => 0
  | c :: rest =>
    if isBracket c then shortCycles (c == '<') rest else short.toNat + shortCycles short rest

-- Two texts with brackets in the same places, whatever else they hold.
def SameBrackets (cs ds : List Char) : Prop :=
  ∀ (p : ℕ) (c : Char), isBracket c → (cs[p]? = some c ↔ ds[p]? = some c)

-- Texts have the same brackets if nothing is left between them once all else is blotted out.
theorem sameBrackets_of_map_eq {cs ds : List Char}
    (h : cs.map (Option.guard fun c => isBracket c) = ds.map (Option.guard fun c => isBracket c)) :
    SameBrackets cs ds := by
  have hbracket : ∀ (es : List Char) (p : ℕ) (c : Char), isBracket c →
      (es[p]? = some c ↔
        (es.map (Option.guard fun c => isBracket c))[p]? = some (some c)) := by
    intro es p c hc
    rw [List.getElem?_map, Option.map_eq_some_iff]
    constructor
    · intro hes
      exact ⟨c, hes, by simpa using hc⟩
    · rintro ⟨d, hes, hd⟩
      rw [hes, (Option.guard_eq_some_iff.mp hd).1]
  intro p c hc
  rw [hbracket cs p c hc, hbracket ds p c hc, h]

theorem SameBrackets.take {cs ds : List Char} (h : SameBrackets cs ds) (p : ℕ) :
    SameBrackets (cs.take p) (ds.take p) := by
  intro q c hc
  rw [List.getElem?_take, List.getElem?_take]
  split
  · exact h q c hc
  · rfl

theorem SameBrackets.tail {c d : Char} {cs ds : List Char}
    (h : SameBrackets (c :: cs) (d :: ds)) : SameBrackets cs ds :=
  fun p => h (p + 1)

theorem SameBrackets.head {c d : Char} {cs ds : List Char}
    (h : SameBrackets (c :: cs) (d :: ds)) (hbracket : isBracket c ∨ isBracket d) : c = d := by
  have hhead := h 0
  simp only [List.getElem?_cons_zero, Option.some.injEq] at hhead
  rcases hbracket with hc | hd
  · exact ((hhead c hc).mp rfl).symm
  · exact (hhead d hd).mpr rfl

-- Brackets alone say which cycles are short.
theorem SameBrackets.cycles_eq {cs ds : List Char} (h : SameBrackets cs ds)
    (hlength : cs.length = ds.length) (short : Bool) :
    span short cs = span short ds ∧ shortCycles short cs = shortCycles short ds := by
  induction cs generalizing ds short with
  | nil =>
      rw [List.eq_nil_of_length_eq_zero hlength.symm]
      exact ⟨rfl, rfl⟩
  | cons c cs ih =>
      cases ds with
      | nil => cases hlength
      | cons d ds =>
          have hrest : cs.length = ds.length := Nat.succ.inj hlength
          by_cases hc : isBracket c
          · cases h.head (Or.inl hc)
            rw [span, span, shortCycles, shortCycles, if_pos hc, if_pos hc, if_pos hc, if_pos hc]
            exact ih h.tail hrest _
          · have hd : ¬ isBracket d := by
              intro hd
              rw [h.head (Or.inr hd)] at hc
              exact hc hd
            obtain ⟨hspan, hshort⟩ := ih h.tail hrest short
            rw [span, span, shortCycles, shortCycles, if_neg hc, if_neg hc, if_neg hd, if_neg hd,
              hspan, hshort]
            exact ⟨rfl, rfl⟩

end Wave

namespace Drawing

open Wave (shortCycles SameBrackets)

section Scan

variable (f : Frame) (t : Timing ℚ) (y : ℚ) (short : Bool) (position : ℚ)

-- How far a character of a node string moves on the position, in cycles.
def eventStep : ℚ := if short then 0.25 else 1.0

-- The cycles that are passed over by a text. A short cycle counts for half of the half cycle that
-- it takes in a wave.
def eventSpan (cs : List Char) : ℚ := span short cs / 2 - shortCycles short cs / 4

theorem eventsFrom_bracket (c : Char) (rest : List Char) (hc : isBracket c) :
    eventsFrom f t y (eventStep short) position (c :: rest) =
      eventsFrom f t y (eventStep (c == '<')) position rest := by
  simp only [isBracket, Bool.or_eq_true, beq_iff_eq] at hc
  rcases hc with rfl | rfl <;> simp [eventsFrom, eventStep]

theorem eventsFrom_of_not_bracket (c : Char) (rest : List Char) (hc : isBracket c = false) :
    eventsFrom f t y (eventStep short) position (c :: rest) =
      (if c = '.' then [] else [(c, ⟨f.cycleX t position, y⟩)]) ++
        eventsFrom f t y (eventStep short) (position + eventStep short) rest := by
  simp only [isBracket, Bool.or_eq_false_iff] at hc
  rw [eventsFrom, hc.1, hc.2]
  by_cases hdot : c = '.'
  · simp [hdot]
  · simp [hdot]

-- The position reached behind a text is as many cycles on as the text passes over.
theorem eventsFrom_append (cs ds : List Char) :
    eventsFrom f t y (eventStep short) position (cs ++ ds) =
      eventsFrom f t y (eventStep short) position cs ++
        eventsFrom f t y (eventStep (shortAfter short cs)) (position + eventSpan short cs) ds := by
  induction cs generalizing short position with
  | nil => simp [eventsFrom, eventSpan, span, shortCycles]
  | cons c rest ih =>
      rw [List.cons_append]
      by_cases hb : isBracket c
      · have hspan : eventSpan short (c :: rest) = eventSpan (c == '<') rest := by
          rw [eventSpan, Wave.span_bracket short c rest hb, shortCycles, if_pos hb]
          rfl
        rw [eventsFrom_bracket f t y short position c _ hb,
          eventsFrom_bracket f t y short position c _ hb, Wave.shortAfter_bracket short c rest hb,
          hspan, ih]
      · have hc : isBracket c = false := by simpa using hb
        have hspan : position + eventStep short + eventSpan short rest =
            position + eventSpan short (c :: rest) := by
          rw [eventSpan, eventSpan, Wave.span_of_not_bracket short c rest hc, shortCycles,
            if_neg hb]
          cases short <;> norm_num [eventStep, cycleHalves] <;> ring
        rw [eventsFrom_of_not_bracket f t y short position c _ hc,
          eventsFrom_of_not_bracket f t y short position c _ hc,
          Wave.shortAfter_of_not_isBracket short c rest hc, ih, hspan, List.append_assoc]

end Scan

theorem length_eventsFrom (f : Frame) (t : Timing ℚ) (y step position : ℚ) (cs : List Char) :
    (eventsFrom f t y step position cs).length = (cs.filter isEventName).length := by
  rw [← map_fst_eventsFrom f t y step position cs, List.length_map]

theorem nodeEvents_getElem? (f : Frame) (t : Timing ℚ) (row : ℕ) {node : String} {p : ℕ} {c : Char}
    (hnode : node.toList[p]? = some c) (hc : isBracket c = false) (hdot : c ≠ '.') :
    (nodeEvents f t row node)[((node.toList.take p).filter isEventName).length]? =
      some (c, ⟨f.cycleX t (eventSpan false (node.toList.take p)), eventY f row⟩) := by
  have hsplit : node.toList = node.toList.take p ++ c :: node.toList.drop (p + 1) := by
    obtain ⟨hp, rfl⟩ := List.getElem?_eq_some_iff.mp hnode
    rw [List.getElem_cons_drop, List.take_append_drop]
  have hevents : nodeEvents f t row node =
      eventsFrom f t (eventY f row) (eventStep false) 0 (node.toList.take p) ++
        eventsFrom f t (eventY f row) (eventStep (shortAfter false (node.toList.take p)))
          (eventSpan false (node.toList.take p)) (c :: node.toList.drop (p + 1)) := by
    have hzero : (0.0 : ℚ) = 0 := by norm_num
    rw [← zero_add (eventSpan false (node.toList.take p)), ← eventsFrom_append, ← hsplit, ← hzero]
    rfl
  rw [hevents, ← length_eventsFrom f t (eventY f row) (eventStep false) 0,
    List.getElem?_append_right le_rfl, Nat.sub_self, eventsFrom_of_not_bracket _ _ _ _ _ c _ hc,
    if_neg hdot]
  rfl

section Agreement

variable {f : Frame} {t : Timing ℚ} {cells : ℕ} {halves : ℤ}

theorem cycleX_eventSpan (h : t.OnGrid f cells halves) (cs : List Char) :
    f.cycleX t (eventSpan false cs) =
      Scalar.truncated (f.cell.width * ((span false cs * cells : ℕ)
        - shortCycles false cs * cells / 2 - 2 * t.phase) + f.cell.labelX) := by
  have hcycles : 2 * eventSpan false cs * t.period * f.hscale =
      (span false cs * cells : ℕ) - shortCycles false cs * cells / 2 := by
    push_cast
    rw [← h.period_mul, eventSpan]
    ring
  have htwo : (2.0 : ℚ) = 2 := by norm_num
  rw [← hcycles, ← htwo]
  rfl

-- An event stands at the left edge of the first brick of its cycle, less half the length of each
-- short cycle before it.
theorem events_placed (f : Frame) (t : Timing ℚ) (cells : ℕ) (halves : ℤ) (wave node : String)
    (row : ℕ) (hgrid : t.OnGrid f cells halves) (hwave : Wave.KeepsMarkers wave)
    (hnode : SameBrackets wave.toList node.toList) :
    ∀ p w c, wave.toList[p]? = some w → node.toList[p]? = some c → isBracket c = false → c ≠ '.' →
      ∃ n lag, (Wave.bricks (String.ofList (wave.toList.take p)) (t.stretch f.hscale)
          (0 : ℚ)).length = n ∧
        lag = shortCycles false (wave.toList.take p) ∧
        (nodeEvents f t row node)[((node.toList.take p).filter isEventName).length]? =
          some (c, ⟨Scalar.truncated (f.cell.width * (n - lag * cells / 2 - 2 * t.phase)
            + f.cell.labelX), eventY f row⟩) ∧
        (2 * t.phase ≤ n → ∃ place,
          (Wave.bricks wave (t.stretch f.hscale) t.phase).drop place =
            (Wave.bricks wave (t.stretch f.hscale) (0 : ℚ)).drop n ∧
          (nodeEvents f t row node)[((node.toList.take p).filter isEventName).length]? =
            some (c, ⟨Scalar.truncated (brickX f t place - lag * cells / 2 * f.cell.width
              + f.cell.labelX), eventY f row⟩)) := by
  intro p w c hw hc hcb hdot
  have hlength : (wave.toList.take p).length = (node.toList.take p).length := by
    have hwp := (List.getElem?_eq_some_iff.mp hw).1
    have hcp := (List.getElem?_eq_some_iff.mp hc).1
    rw [List.length_take_of_le hwp.le, List.length_take_of_le hcp.le]
  obtain ⟨hspan, hshort⟩ := (hnode.take p).cycles_eq hlength false
  have hfront : Wave.KeepsMarkers (String.ofList (wave.toList.take p)) := by
    have hwhole : wave =
        String.ofList (wave.toList.take p) ++ String.ofList (wave.toList.drop p) := by
      rw [← String.ofList_append, List.take_append_drop, String.ofList_toList]
    rw [hwhole] at hwave
    exact hwave.of_append
  have hevent := nodeEvents_getElem? f t row hc hcb hdot
  rw [cycleX_eventSpan hgrid, ← hspan, ← hshort] at hevent
  refine ⟨span false (wave.toList.take p) * cells, shortCycles false (wave.toList.take p), ?_, rfl,
    hevent, ?_⟩
  · rw [hgrid.length_bricks hfront, String.toList_ofList]
  · intro hn
    obtain ⟨place, hdrop, hplace⟩ := hgrid.exists_brickX wave hn
    refine ⟨place, hdrop, ?_⟩
    rw [hevent, hplace]
    congr 5
    ring

-- The last event comes after two short cycles, at two cells for each half cycle and a shift by one.
theorem events_placed_after_short_cycles :
    let f : Frame := ⟨Skin.default.cell, 2, 0, 0, 0, 0⟩
    let t : Timing ℚ := ⟨1, 1 / 2⟩
    (Wave.bricks "0<1.>" (t.stretch 2) (0 : ℚ)).length = 8 ∧
      (nodeEvents f t 0 "a<bc>d")[3]? = some ('d', ⟨106, 15⟩) ∧
      ∃ place,
        (Wave.bricks "0<1.>0" (t.stretch 2) t.phase).drop place =
          (Wave.bricks "0<1.>0" (t.stretch 2) (0 : ℚ)).drop 8 ∧
        (nodeEvents f t 0 "a<bc>d")[3]? =
          some ('d', ⟨Scalar.truncated (brickX f t place - 40 + 6), 15⟩) := by
  intro f t
  have hgrid : t.OnGrid f 2 1 := by
    constructor <;> norm_num [t, f, Diagram.maxHscale]
  have hbrackets : SameBrackets "0<1.>0".toList "a<bc>d".toList :=
    Wave.sameBrackets_of_map_eq (by decide)
  obtain ⟨n, lag, hn, hlag, hevent, hplace⟩ := events_placed f t 2 1 "0<1.>0" "a<bc>d" 0 hgrid
    (Or.inl rfl) hbrackets 5 '0' 'd' rfl rfl rfl (by decide)
  have hn8 : n = 8 := by
    rw [← hn]
    have hfront : Wave.KeepsMarkers "0<1.>" := Or.inl rfl
    exact hgrid.length_bricks hfront
  have hlag2 : lag = 2 := hlag
  subst hn8 hlag2
  have hx : Scalar.truncated ((f.cell.width : ℚ) * ((8 : ℕ) - (2 : ℕ) * (2 : ℕ) / 2 - 2 * t.phase)
      + f.cell.labelX) = 106 := by
    apply truncated_whole 106
    norm_num [f, t, Skin.default]
  have hy : (eventY f 0 : ℚ) = 15 := by
    norm_num [eventY, f, Skin.default, Frame.rowY, Frame.firstRow]
  rw [hx, hy] at hevent
  refine ⟨hn, hevent, ?_⟩
  obtain ⟨place, hdrop, hedge⟩ := hplace (by norm_num [t])
  have hleft : brickX f t place - (2 : ℕ) * (2 : ℕ) / 2 * f.cell.width + f.cell.labelX =
      brickX f t place - 40 + 6 := by
    norm_num [f, Skin.default]
  rw [hleft, hy] at hedge
  exact ⟨place, hdrop, hedge⟩

-- What the lag is due to: in brackets an event is not drawn where its brick is.
theorem not_events_aligned_in_brackets :
    ¬ ∀ (f : Frame) (t : Timing ℚ) (cells : ℕ) (halves : ℤ) (wave node : String) (row : ℕ),
      t.OnGrid f cells halves → Wave.KeepsMarkers wave →
      SameBrackets wave.toList node.toList →
      ∀ p w c, wave.toList[p]? = some w → node.toList[p]? = some c → isBracket c = false →
        c ≠ '.' →
        (nodeEvents f t row node)[((node.toList.take p).filter isEventName).length]? =
          some (c, ⟨Scalar.truncated (f.cell.width *
            ((Wave.bricks (String.ofList (wave.toList.take p)) (t.stretch f.hscale)
              (0 : ℚ)).length - 2 * t.phase) + f.cell.labelX), eventY f row⟩) := by
  intro h
  let f : Frame := ⟨Skin.default.cell, 1, 0, 0, 0, 0⟩
  let t : Timing ℚ := ⟨1, 0⟩
  have hgrid : t.OnGrid f 1 0 := by
    constructor <;> norm_num [t, f, Diagram.maxHscale]
  have hbrackets : SameBrackets "0<1.>".toList ".<.c>".toList :=
    Wave.sameBrackets_of_map_eq (by decide)
  have haligned := h f t 1 0 "0<1.>" ".<.c>" 0 hgrid (Or.inl rfl) hbrackets 3 '.' 'c' rfl rfl rfl
    (by decide)
  have hc : ".<.c>".toList[3]? = some 'c' := rfl
  have hplaced := nodeEvents_getElem? f t 0 hc rfl (by decide)
  have hfront : Wave.KeepsMarkers "0<1" := Or.inl rfl
  have hthree : (Wave.bricks (String.ofList ("0<1.>".toList.take 3)) (t.stretch f.hscale)
      (0 : ℚ)).length = 3 := hgrid.length_bricks hfront
  have hclaimed : Scalar.truncated ((f.cell.width : ℚ) * ((3 : ℕ) - 2 * t.phase) + f.cell.labelX) =
      66 := by
    apply truncated_whole 66
    norm_num [f, t, Skin.default]
  have hdrawn : f.cycleX t (eventSpan false (".<.c>".toList.take 3)) = 56 := by
    have hspan : span false (".<.c>".toList.take 3) = 3 := rfl
    have hshort : shortCycles false (".<.c>".toList.take 3) = 1 := rfl
    rw [cycleX_eventSpan hgrid, hspan, hshort]
    apply truncated_whole 56
    norm_num [f, t, Skin.default]
  rw [hthree, hclaimed] at haligned
  rw [hdrawn, haligned] at hplaced
  norm_num at hplaced

end Agreement

end Drawing

end TimingDiagram
