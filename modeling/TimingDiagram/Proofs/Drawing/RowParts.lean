import TimingDiagram.Proofs.Drawing.NamedEvents

namespace TimingDiagram

namespace Frame

-- Two frames that place everything inside a row alike, whatever room they leave around the rows.
structure Alike (f g : Frame) : Prop where
  cell : f.cell = g.cell
  hscale : f.hscale = g.hscale

theorem Alike.cycleX {f g : Frame} (h : f.Alike g) (t : Timing Float) (position : Float) :
    f.cycleX t position = g.cycleX t position := by
  rw [Frame.cycleX, Frame.cycleX, h.cell, h.hscale]

theorem alike_of_hscale {d e : Diagram} (h : d.hscale = e.hscale) : d.frame.Alike e.frame :=
  ⟨rfl, h⟩

end Frame

-- Two rows that are drawn at the same place and differ only in how their titles are indented.
structure Row.Alike (row other : Row) : Prop where
  number : row.number = other.number
  lane : row.lane = other.lane

namespace Drawing

variable {f g : Frame} {row other : Row}

theorem gapsFrom_alike (h : f.Alike g) (t : Timing Float) (short : Bool) (position : Float)
    (cs : List Char) : gapsFrom f t short position cs = gapsFrom g t short position cs := by
  induction cs generalizing short position with
  | nil => rfl
  | cons c rest ih => simp only [gapsFrom, ih, h.cell, h.hscale]

theorem eventsFrom_alike (h : f.Alike g) (t : Timing Float) (y step position : Float)
    (cs : List Char) : eventsFrom f t y step position cs = eventsFrom g t y step position cs := by
  induction cs generalizing step position with
  | nil => rfl
  | cons c rest ih => simp only [eventsFrom, ih, h.cycleX]

theorem waveRow_alike (h : f.Alike g) (hrow : row.Alike other) (index : ℕ) :
    waveRow f index row (row.bricks f.hscale row.timing) =
      waveRow g index other (other.bricks g.hscale other.timing) := by
  obtain ⟨number, depth, lane⟩ := row
  obtain ⟨_, _, _⟩ := other
  obtain ⟨rfl, rfl⟩ := hrow
  simp only [waveRow, h.cell, h.hscale]
  rfl

theorem gapRow_alike (h : f.Alike g) (hrow : row.Alike other) (index : ℕ) :
    gapRow f index row.timing row = gapRow g index other.timing other := by
  obtain ⟨number, depth, lane⟩ := row
  obtain ⟨_, _, _⟩ := other
  obtain ⟨rfl, rfl⟩ := hrow
  simp only [gapRow, gaps, gapsFrom_alike h]
  rfl

theorem labelRow_alike (h : f.Alike g) (hrow : row.Alike other) (index : ℕ) :
    labelRow f index row.timing row = labelRow g index other.timing other := by
  obtain ⟨number, depth, lane⟩ := row
  obtain ⟨_, _, _⟩ := other
  obtain ⟨rfl, rfl⟩ := hrow
  simp only [labelRow, inlineLabel, h.cycleX, h.cell]
  rfl

theorem rowEvents_alike (h : f.Alike g) (hrow : row.Alike other) :
    rowEvents f row.timing row = rowEvents g other.timing other := by
  obtain ⟨number, depth, lane⟩ := row
  obtain ⟨_, _, _⟩ := other
  obtain ⟨rfl, rfl⟩ := hrow
  simp only [rowEvents, nodeEvents, eventsFrom_alike h, eventY, h.cell]
  rfl

-- The events that a row adds, and those found once some rows were gone through, each with any
-- timing entered before.
def eventsAdded (f : Frame) (row : Row) (t : Timing Float) : List (Char × Point Float) :=
  Id.run ((drawRow (rowEvents f) row).run' t)

def eventsAfter (f : Frame) (rows : List Row) (t : Timing Float) : List (Char × Point Float) :=
  Id.run ((events f rows).run' t)

theorem eventsAdded_eq (f : Frame) (row : Row) (t : Timing Float) :
    eventsAdded f row t = rowEvents f row.timing row := by
  rw [eventsAdded, StateT.run'_eq, run_drawRow]
  rfl

theorem eventsAfter_eq (f : Frame) (rows : List Row) (t : Timing Float) :
    eventsAfter f rows t = allEvents f rows := by
  rw [eventsAfter, StateT.run'_eq, run_events]
  rfl

theorem eventsAfter_take_succ (f : Frame) {rows : List Row} {r : ℕ} (hrow : rows[r]? = some row)
    (t : Timing Float) :
    eventsAfter f (rows.take (r + 1)) t =
      placeAll (eventsAfter f (rows.take r) t) (rowEvents f row.timing row) := by
  have htake : rows.take (r + 1) = rows.take r ++ [row] := by
    rw [List.take_add_one, hrow, Option.toList_some]
  rw [eventsAfter_eq, eventsAfter_eq, allEvents, allEvents, htake, List.flatMap_append, placeAll,
    List.foldl_append, List.flatMap_singleton]
  rfl

end Drawing

namespace Diagram

-- A row looks the same in every drawing with the same scale: what else is drawn has no influence on
-- its wave, gaps, inline labels and events.
theorem row_drawn_alone (strict : Bool) (glyphs glyphs' : Option String) (index r : ℕ)
    (d e : Diagram) (row other : Row) (t u : Element) (hscale : d.hscale = e.hscale)
    (hrow : d.signal.outline.rows[r]? = some row)
    (hother : e.signal.outline.rows[r]? = some other) (hlane : row.lane = other.lane)
    (ht : d.draw { strict := strict, glyphs := glyphs } index = .ok t)
    (hu : e.draw { strict := strict, glyphs := glyphs' } index = .ok u) :
    (∃ wave,
      t.part? [s!"waves_{index}", s!"lanes_{index}", s!"wavelane_{r}_{index}"] = some wave ∧
      u.part? [s!"waves_{index}", s!"lanes_{index}", s!"wavelane_{r}_{index}"] = some wave) ∧
    (∃ gap,
      t.part? [s!"waves_{index}", s!"lanes_{index}", s!"wavegaps_{index}",
        s!"wavegap_{r}_{index}"] = some gap ∧
      u.part? [s!"waves_{index}", s!"lanes_{index}", s!"wavegaps_{index}",
        s!"wavegap_{r}_{index}"] = some gap) ∧
    (strict = false → ∃ labels,
      t.part? [s!"waves_{index}", s!"lanes_{index}", s!"labels_{index}",
        s!"labels_{r}_{index}"] = some labels ∧
      u.part? [s!"waves_{index}", s!"lanes_{index}", s!"labels_{index}",
        s!"labels_{r}_{index}"] = some labels) ∧
    ∃ added,
      (∀ t, Drawing.eventsAdded d.frame row t = added ∧
        Drawing.eventsAfter d.frame (d.rows.take (r + 1)) t =
          Drawing.placeAll (Drawing.eventsAfter d.frame (d.rows.take r) t) added) ∧
      ∀ t, Drawing.eventsAdded e.frame other t = added ∧
        Drawing.eventsAfter e.frame (e.rows.take (r + 1)) t =
          Drawing.placeAll (Drawing.eventsAfter e.frame (e.rows.take r) t) added := by
  have hframe : d.frame.Alike e.frame := Frame.alike_of_hscale hscale
  have halike : row.Alike other :=
    ⟨(d.number_of_rows hrow).trans (e.number_of_rows hother).symm, hlane⟩
  obtain ⟨parts, -, rfl⟩ := d.eq_sheetWith _ index ht
  obtain ⟨others, -, rfl⟩ := e.eq_sheetWith _ index hu
  have hwave := Drawing.waveRow_alike hframe halike index
  have hgap := Drawing.gapRow_alike hframe halike index
  have hlabel := Drawing.labelRow_alike hframe halike index
  refine ⟨?_, ?_, ?_, ?_⟩
  · rw [part?_lanes, part?_lanes, d.part?_wave _ index parts hrow,
      e.part?_wave _ index others hother]
    exact ⟨_, rfl, congrArg Element.ofNode? hwave.symm⟩
  · rw [part?_lanes, part?_lanes, d.part?_gap _ index parts hrow,
      e.part?_gap _ index others hother]
    exact ⟨_, rfl, congrArg Element.ofNode? hgap.symm⟩
  · intro hstrict
    rw [part?_lanes, part?_lanes, d.part?_label _ index parts hstrict hrow,
      e.part?_label _ index others hstrict hother]
    exact ⟨_, rfl, congrArg Element.ofNode? hlabel.symm⟩
  · have hevents := Drawing.rowEvents_alike hframe halike
    refine ⟨Drawing.rowEvents d.frame row.timing row, ?_, ?_⟩
    · intro t
      exact ⟨Drawing.eventsAdded_eq d.frame row t, Drawing.eventsAfter_take_succ d.frame hrow t⟩
    · intro t
      rw [hevents]
      exact ⟨Drawing.eventsAdded_eq e.frame other t,
        Drawing.eventsAfter_take_succ e.frame hother t⟩

-- A labelled bus below a spacer, and the same bus inside a group below a slow clock.
theorem row_drawn_alone_regrouped :
    let bus : Lane := { name := "bus", wave := "=|=", period := 2.0, phase := 0.5, data := ["a"],
                        node := some "m<n", label := some [.skip, .text "go" 0.5] }
    let clock : Lane := { wave := "p..", period := 3.0, phase := 1.0, node := some "m" }
    let d : Diagram := { signal := { entries := [.spacer, .lane bus] } }
    let e : Diagram := { signal := { entries := [.lane clock, .group (some "g") [.lane bus]] }
                         head := some { text := some (.plain "title") } }
    d.hscale = e.hscale ∧
    ∃ t u, d.draw {} 0 = .ok t ∧ e.draw { glyphs := some "<g/>" } 0 = .ok u ∧
      (∃ wave, t.part? ["waves_0", "lanes_0", "wavelane_1_0"] = some wave ∧
        u.part? ["waves_0", "lanes_0", "wavelane_1_0"] = some wave) ∧
      (∃ gap, t.part? ["waves_0", "lanes_0", "wavegaps_0", "wavegap_1_0"] = some gap ∧
        u.part? ["waves_0", "lanes_0", "wavegaps_0", "wavegap_1_0"] = some gap) ∧
      (∃ labels, t.part? ["waves_0", "lanes_0", "labels_0", "labels_1_0"] = some labels ∧
        u.part? ["waves_0", "lanes_0", "labels_0", "labels_1_0"] = some labels) ∧
      ∃ added, (∀ t, Drawing.eventsAdded d.frame ⟨1, 10, some bus⟩ t = added) ∧
        ∀ t, Drawing.eventsAdded e.frame ⟨1, 35, some bus⟩ t = added := by
  intro bus clock d e
  obtain ⟨t, ht⟩ : ∃ t, d.draw {} 0 = .ok t :=
    (exists_draw_iff_of_fits {} 0 (by decide +kernel)).mpr (by simp [d])
  obtain ⟨u, hu⟩ : ∃ u, e.draw { glyphs := some "<g/>" } 0 = .ok u :=
    (exists_draw_iff_of_fits _ 0 (by decide +kernel)).mpr (by simp [e])
  obtain ⟨hwave, hgap, hlabel, added, hd, he⟩ :=
    row_drawn_alone false none (some "<g/>") 0 1 d e ⟨1, 10, some bus⟩ ⟨1, 35, some bus⟩ _ _
      rfl rfl rfl rfl ht hu
  exact ⟨rfl, _, _, ht, hu, hwave, hgap, hlabel rfl, added, fun t => (hd t).1, fun t => (he t).1⟩

end Diagram

end TimingDiagram
