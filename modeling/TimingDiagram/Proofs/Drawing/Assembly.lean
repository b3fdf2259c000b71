import TimingDiagram.Proofs.Markup.Parts
import TimingDiagram.Proofs.Signal.Nesting
import TimingDiagram.Proofs.Drawing.Passes

namespace TimingDiagram

namespace Diagram

-- What a drawing fails for if it cannot be made: the width of the column of titles, the labels of
-- the marks, and the connectors with the names of the events.
structure Parts where
  column : ℕ
  labels : List Node
  connectors : List Node

variable (options : DrawingOptions) (d : Diagram) (index : ℕ)

-- What the parts of a drawing are placed by.
def frame : Frame := Frame.ofDiagram (Skin.lookup d.skin) d

def rows : List Row := d.signal.outline.rows

-- The number of bricks in the longest row.
def longest : ℕ :=
  ((d.rows.map fun row => row.bricks d.hscale row.timing).map List.length).foldl max 0

-- The parts come out the same under all options and numbers.
def parts : Except DrawingError Parts := do
  let column ← DrawingError.ofOverflow (Drawing.titleColumn d.frame.cell d.rows)
  let labels ← DrawingError.ofOverflow (Drawing.markLabels d.frame d d.longest d.rows.length)
  let connectors ← Drawing.connectors (Drawing.allEvents d.frame d.rows) d.edges
  return ⟨column, labels, connectors⟩

def labelLayer : Element :=
  Drawing.group s!"labels_{index}"
    (d.rows.map fun row => Drawing.labelRow d.frame index row.timing row)

def waves : List Node :=
  d.rows.map fun row => Drawing.waveRow d.frame index row (row.bricks d.hscale row.timing)

def gapLayer : Element :=
  Drawing.group s!"wavegaps_{index}"
    (d.rows.map fun row => Drawing.gapRow d.frame index row.timing row)

-- The layers that hang on the rows, with given parts.
def lanesWith (parts : Parts) : Element :=
  Drawing.movedGroup s!"lanes_{index}" s!"translate({parts.column}.5,{d.frame.headHeight}.5)"
    ((if options.strict then [] else [(d.labelLayer index).toNode])
      ++ [Drawing.marks d.frame d d.longest d.rows.length index parts.labels] ++ d.waves index
      ++ [(Drawing.group s!"wavearcs_{index}" parts.connectors).toNode, (d.gapLayer index).toNode])

-- The layers and the brackets of the groups beside them.
def contentWith (parts : Parts) : Element :=
  Drawing.group s!"waves_{index}"
    [(d.lanesWith options index parts).toNode,
      Drawing.brackets d.frame.headHeight index d.signal.outline.boxes]

-- The whole drawing, with given parts.
def sheetWith (parts : Parts) : Element :=
  let width := parts.column + d.frame.cell.width * (d.longest + 1)
  let height := Frame.rowsHeight d.rows.length + d.frame.headHeight + d.frame.footHeight
  { tag := "svg"
    attrs := [("id", s!"svgcontent_{index}"), ("class", "WaveDrom"), ("overflow", "hidden"),
      ("width", toString width), ("height", toString height), ("viewBox", s!"0 0 {width} {height}")]
    children := Drawing.shared options (Skin.lookup d.skin) index
      ++ [(d.contentWith options index parts).toNode] }

theorem waves_eq :
    ((d.rows.zip (d.rows.map fun row => row.bricks d.hscale row.timing)).map fun (row, bricks) =>
      Drawing.waveRow d.frame index row bricks) = d.waves index := by
  rw [List.map_zip_eq_zipWith, List.zipWith_map_right, List.zipWith_self]
  rfl

theorem run_labels (t : Timing Float) :
    ∃ t', (Drawing.labels options d.frame d.rows index).run t =
      pure (if options.strict then [] else [(d.labelLayer index).toNode], t') := by
  rw [Drawing.labels]
  split
  · exact ⟨t, rfl⟩
  · simp only [StateT.run_bind, Drawing.run_drawRows, pure_bind, StateT.run_pure]
    exact ⟨_, rfl⟩

-- The layers come out the same whatever timing the bricks, or the inline labels after them, leave
-- entered.
theorem run_lanes (t : Timing Float) :
    ∃ t', ∀ column, (Drawing.lanes options d.frame d d.rows
        (d.rows.map fun row => row.bricks d.hscale row.timing) d.longest column index).run t = do
      let labels ← DrawingError.ofOverflow (Drawing.markLabels d.frame d d.longest d.rows.length)
      let connectors ← Drawing.connectors (Drawing.allEvents d.frame d.rows) d.edges
      return (d.lanesWith options index ⟨column, labels, connectors⟩, t') := by
  obtain ⟨t', hlabels⟩ := d.run_labels options index t
  refine ⟨Drawing.entered d.rows (Drawing.entered d.rows t'), fun column => ?_⟩
  simp only [Drawing.lanes, d.waves_eq index, StateT.run_bind, hlabels, pure_bind, Drawing.run_arcs,
    Drawing.run_drawRows, StateT.run_lift, StateT.run_pure, bind_assoc]
  cases DrawingError.ofOverflow (Drawing.markLabels d.frame d d.longest d.rows.length) with
  | error e => rfl
  | ok labels => cases Drawing.connectors (Drawing.allEvents d.frame d.rows) d.edges <;> rfl

-- A drawing fails where its parts do, and is put together around them otherwise.
theorem draw_eq : d.draw options index = d.parts.map (d.sheetWith options index) := by
  obtain ⟨t', hlanes⟩ := d.run_lanes options index (Drawing.entered d.rows Timing.default)
  simp only [frame, rows, longest] at hlanes
  change _ = d.sheetWith options index <$> d.parts
  simp only [draw, Drawing.sheet, StateT.run'_eq, StateT.run_bind, Drawing.run_drawRows, pure_bind,
    StateT.run_pure, StateT.run_lift, bind_assoc, hlanes, map_bind, map_pure, parts]
  rfl

theorem draw_of_parts {parts : Parts} (h : d.parts = .ok parts) :
    d.draw options index = .ok (d.sheetWith options index parts) := by
  rw [draw_eq, h]
  rfl

theorem eq_sheetWith {t : Element} (h : d.draw options index = .ok t) :
    ∃ parts, d.parts = .ok parts ∧ t = d.sheetWith options index parts := by
  rw [draw_eq] at h
  obtain ⟨parts, hparts, rfl⟩ := map_eq_ok.mp h
  exact ⟨parts, hparts, rfl⟩

theorem map_number_rows : d.rows.map Row.number = List.range d.rows.length := by
  have h := (Outline.nested_ofEntries (Outline.indent d.signal.name) 0 d.signal.entries).numbers
  rw [← List.range_eq_range'] at h
  exact h

theorem number_of_rows {r : ℕ} {row : Row} (hrow : d.rows[r]? = some row) : row.number = r := by
  have h := Outline.nested_ofEntries (Outline.indent d.signal.name) 0 d.signal.entries
  rw [h.number_eq hrow, Nat.zero_add]

-- The ids of the layers in the order they are painted.
def layerIds (strict : Bool) (rows index : ℕ) : List String :=
  (if strict then [] else [s!"labels_{index}"]) ++ [s!"gmarks_{index}"]
    ++ (List.range rows).map (fun r => s!"wavelane_{r}_{index}")
    ++ [s!"wavearcs_{index}", s!"wavegaps_{index}"]

theorem nodup_numbered (front : String) (rows : ℕ) :
    ((List.range rows).map fun r => s!"{front}_{r}_{index}").Nodup := by
  refine List.nodup_range.map ?_
  intro r s h
  simpa [String.append_left_inj, String.append_right_inj, toString] using h

theorem toString_string (s : String) : toString s = s := rfl

theorem nodup_layerIds (strict : Bool) (rows : ℕ) : (layerIds strict rows index).Nodup := by
  have hwaves : ((List.range rows).map fun r => s!"wavelane_{r}_{index}").Nodup :=
    nodup_numbered index "wavelane" rows
  unfold layerIds
  simp only [List.nodup_append', hwaves]
  cases strict <;> simp [String.ext_iff, toString_string]

theorem heading_group (id : String) (children : List Node) :
    (Drawing.group id children).toNode.heading = (some "g", some id) := by
  simp [Drawing.group, Element.toNode, Node.heading, Node.tag?, Node.id?, Node.attr?]

theorem heading_movedGroup (id move : String) (children : List Node) :
    (Drawing.movedGroup id move children).toNode.heading = (some "g", some id) := by
  simp [Drawing.movedGroup, Element.toNode, Node.heading, Node.tag?, Node.id?, Node.attr?]

theorem id?_group (id : String) (children : List Node) :
    (Drawing.group id children).toNode.id? = some id :=
  congrArg Prod.snd (heading_group id children)

theorem id?_movedGroup (id move : String) (children : List Node) :
    (Drawing.movedGroup id move children).toNode.id? = some id :=
  congrArg Prod.snd (heading_movedGroup id move children)

-- What is drawn for each row, one after the other, is numbered from the top.
theorem map_heading_rows (draw : Row → Node) (front : String)
    (hdraw : ∀ row, (draw row).heading = (some "g", some s!"{front}_{row.number}_{index}")) :
    (d.rows.map draw).map Node.heading =
      (List.range d.rows.length).map fun r => (some "g", some s!"{front}_{r}_{index}") := by
  rw [← d.map_number_rows, List.map_map, List.map_map]
  apply List.map_congr_left
  intro row _
  exact hdraw row

section Parts

variable (parts : Parts)

theorem map_heading_waves :
    (d.waves index).map Node.heading =
      (List.range d.rows.length).map fun r => (some "g", some s!"wavelane_{r}_{index}") :=
  d.map_heading_rows index _ "wavelane" fun _ => heading_movedGroup _ _ _

theorem map_heading_lanesWith :
    (d.lanesWith options index parts).children.map Node.heading =
      (layerIds options.strict d.rows.length index).map fun id => (some "g", some id) := by
  have hmarks : (Drawing.marks d.frame d d.longest d.rows.length index parts.labels).heading =
      (some "g", some s!"gmarks_{index}") := heading_group _ _
  have hlabels : (if options.strict then [] else [(d.labelLayer index).toNode]).map Node.heading =
      (if options.strict then [] else [s!"labels_{index}"]).map fun id => (some "g", some id) := by
    cases options.strict
    · simp [labelLayer, heading_group]
    · rfl
  simp only [lanesWith, Drawing.movedGroup, layerIds, List.map_append, hlabels, hmarks,
    map_heading_waves, List.map_map, List.map_cons, List.map_nil, gapLayer, heading_group]
  rfl

theorem nodup_childIds_lanesWith : (d.lanesWith options index parts).childIds.Nodup := by
  rw [Element.childIds_eq (d.map_heading_lanesWith options index parts)]
  exact nodup_layerIds index options.strict d.rows.length

theorem childIds_sheetWith : (d.sheetWith options index parts).childIds = [s!"waves_{index}"] := by
  have hshared : (Drawing.shared options (Skin.lookup d.skin) index).filterMap Node.id? = [] := by
    unfold Drawing.shared
    split <;> rfl
  rw [Element.childIds, sheetWith, List.filterMap_append, hshared, List.nil_append, contentWith,
    List.filterMap_cons_some (id?_group _ _)]
  rfl

theorem child?_contentWith :
    (d.sheetWith options index parts).child? s!"waves_{index}" =
      some (d.contentWith options index parts) := by
  have hids : (d.sheetWith options index parts).childIds.Nodup := by
    rw [childIds_sheetWith]
    exact List.nodup_singleton _
  exact Element.child?_eq hids (List.mem_append_right _ (List.mem_singleton_self _)) (id?_group _ _)

theorem nodup_childIds_contentWith : (d.contentWith options index parts).childIds.Nodup := by
  have hlanes : (d.lanesWith options index parts).toNode.id? = some s!"lanes_{index}" :=
    id?_movedGroup _ _ _
  have hgroups : (Drawing.brackets d.frame.headHeight index d.signal.outline.boxes).id? =
      some s!"groups_{index}" := id?_group _ _
  rw [Element.childIds, contentWith, Drawing.group, List.filterMap_cons_some hlanes,
    List.filterMap_cons_some hgroups]
  simp [String.ext_iff, toString_string]

theorem part?_lanes (ids : List String) :
    (d.sheetWith options index parts).part? (s!"waves_{index}" :: s!"lanes_{index}" :: ids) =
      (d.lanesWith options index parts).part? ids := by
  have hlanes := Element.child?_eq (d.nodup_childIds_contentWith options index parts)
    List.mem_cons_self (id?_movedGroup s!"lanes_{index}" _ _)
  rw [Element.part?, child?_contentWith, Option.bind_some, Element.part?, hlanes]
  rfl

theorem part?_groups :
    (d.sheetWith options index parts).part? [s!"waves_{index}", s!"groups_{index}"] =
      Element.ofNode? (Drawing.brackets d.frame.headHeight index d.signal.outline.boxes) := by
  have hgroups := Element.child?_eq (d.nodup_childIds_contentWith options index parts)
    (List.mem_cons_of_mem _ List.mem_cons_self) (id?_group s!"groups_{index}" _)
  rw [Element.part?, child?_contentWith, Option.bind_some, Element.part?_singleton]
  exact hgroups

variable {r : ℕ} {row : Row}

-- The drawing of a row among the drawings of all rows.
theorem child?_row (e : Element) (draw : Row → Node) (front : String)
    (hchildren : e.children = d.rows.map draw)
    (hdraw : ∀ row, (draw row).heading = (some "g", some s!"{front}_{row.number}_{index}"))
    (hrow : d.rows[r]? = some row) :
    e.child? s!"{front}_{r}_{index}" = Element.ofNode? (draw row) := by
  have hids : e.childIds.Nodup := by
    have hheadings := d.map_heading_rows index draw front hdraw
    rw [← hchildren, ← Function.comp_def (fun id => (some "g", some id)), ← List.map_map]
      at hheadings
    rw [Element.childIds_eq hheadings]
    exact nodup_numbered index front d.rows.length
  apply Element.child?_eq hids
  · rw [hchildren]
    exact List.mem_map_of_mem (List.mem_of_getElem? hrow)
  · rw [← d.number_of_rows hrow]
    exact congrArg Prod.snd (hdraw row)

theorem part?_wave (hrow : d.rows[r]? = some row) (ids : List String) :
    (d.lanesWith options index parts).part? (s!"wavelane_{r}_{index}" :: ids) =
      (Element.ofNode? (Drawing.waveRow d.frame index row (row.bricks d.hscale row.timing))).bind
        fun wave => wave.part? ids := by
  have hmem : Drawing.waveRow d.frame index row (row.bricks d.hscale row.timing) ∈
      (d.lanesWith options index parts).children :=
    List.mem_append_left _ (List.mem_append_right _
      (List.mem_map_of_mem (List.mem_of_getElem? hrow)))
  have hid : (Drawing.waveRow d.frame index row (row.bricks d.hscale row.timing)).id? =
      some s!"wavelane_{r}_{index}" := by
    rw [← d.number_of_rows hrow]
    exact id?_movedGroup _ _ _
  rw [Element.part?, Element.child?_eq (d.nodup_childIds_lanesWith options index parts) hmem hid]

theorem child?_gapLayer :
    (d.lanesWith options index parts).child? s!"wavegaps_{index}" = some (d.gapLayer index) :=
  Element.child?_eq (d.nodup_childIds_lanesWith options index parts)
    (List.mem_append_right _ (List.mem_cons_of_mem _ List.mem_cons_self)) (id?_group _ _)

theorem child?_labelLayer (hstrict : options.strict = false) :
    (d.lanesWith options index parts).child? s!"labels_{index}" = some (d.labelLayer index) := by
  have hmem : (d.labelLayer index).toNode ∈ (d.lanesWith options index parts).children := by
    simp [lanesWith, Drawing.movedGroup, hstrict]
  exact Element.child?_eq (d.nodup_childIds_lanesWith options index parts) hmem (id?_group _ _)

theorem part?_gap (hrow : d.rows[r]? = some row) :
    (d.lanesWith options index parts).part? [s!"wavegaps_{index}", s!"wavegap_{r}_{index}"] =
      Element.ofNode? (Drawing.gapRow d.frame index row.timing row) := by
  rw [Element.part?, child?_gapLayer, Option.bind_some, Element.part?_singleton]
  exact d.child?_row index (d.gapLayer index)
    (fun row => Drawing.gapRow d.frame index row.timing row) "wavegap" rfl
    (fun _ => heading_movedGroup _ _ _) hrow

theorem part?_label (hstrict : options.strict = false) (hrow : d.rows[r]? = some row) :
    (d.lanesWith options index parts).part? [s!"labels_{index}", s!"labels_{r}_{index}"] =
      Element.ofNode? (Drawing.labelRow d.frame index row.timing row) := by
  rw [Element.part?, d.child?_labelLayer options index parts hstrict, Option.bind_some,
    Element.part?_singleton]
  exact d.child?_row index (d.labelLayer index)
    (fun row => Drawing.labelRow d.frame index row.timing row) "labels" rfl
    (fun _ => heading_movedGroup _ _ _) hrow

end Parts

end Diagram

end TimingDiagram
