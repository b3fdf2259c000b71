import TimingDiagram.Proofs.Drawing.Assembly
import TimingDiagram.Proofs.Drawing.Gaps

namespace TimingDiagram

namespace Drawing

-- A run of bus values begins at a brick with one that has none right before it.
def busRuns (bricks : List Brick) : ℕ :=
  let held := bricks.map fun b => b.dataValue.isSome
  ((false :: held).zip held).count (false, true)

theorem length_runMiddlesFrom (i run : ℕ) (bricks : List Brick) :
    (runMiddlesFrom i run bricks).length =
      (if run = 0 then 0 else 1) +
        ((decide (run ≠ 0) :: bricks.map fun b => b.dataValue.isSome).zip
          (bricks.map fun b => b.dataValue.isSome)).count (false, true) := by
  induction bricks generalizing i run with
  | nil =>
      rw [runMiddlesFrom]
      split <;> rfl
  | cons b rest ih =>
      rw [runMiddlesFrom, List.map_cons, List.zip_cons_cons, List.count_cons]
      cases hb : b.dataValue.isSome with
      | true =>
          rw [if_pos rfl, ih]
          by_cases hrun : run = 0
          · simp [hrun, Nat.add_comm]
          · simp [hrun]
      | false =>
          by_cases hrun : run = 0
          · simp [hrun, ih]
          · simp [hrun, ih, Nat.add_comm]

theorem length_runMiddles (bricks : List Brick) : (runMiddles bricks).length = busRuns bricks := by
  rw [runMiddles, length_runMiddlesFrom, busRuns]
  simp

theorem map_snd_zip {α β : Type} (xs : List α) (ys : List β) :
    (xs.zip ys).map Prod.snd = ys.take xs.length := by
  induction xs generalizing ys with
  | nil => rfl
  | cons x rest ih =>
      cases ys with
      | nil => rfl
      | cons y ys =>
          rw [List.zip_cons_cons, List.map_cons, ih, List.length_cons, List.take_succ_cons]

theorem map_glyphs (cell : Cell) (bricks : List Brick) :
    (glyphs cell bricks).map (fun n => (n.tag?, n.attr? "href")) =
      bricks.map fun b => (some "use", some ("#" ++ b.name)) := by
  rw [glyphs, List.map_map]
  conv_rhs => rw [← List.zipIdx_map_fst 0 bricks, List.map_map]
  rfl

theorem map_dataLabels (cell : Cell) (bricks : List Brick) (data : List String) :
    (dataLabels cell bricks data).map (fun n => (n.tag?, Element.nodeText n)) =
      (data.take (busRuns bricks)).map fun s => (some "text", s) := by
  rw [← length_runMiddles, ← map_snd_zip, dataLabels, List.map_map, List.map_map]
  apply List.map_congr_left
  intro p _
  simp [preserved, plainSpan, Node.tag?, Element.nodeText, Element.nodesText]

theorem length_dataLabels (cell : Cell) (bricks : List Brick) (data : List String) :
    (dataLabels cell bricks data).length = min (busRuns bricks) data.length := by
  rw [dataLabels, List.length_map, List.length_zip, length_runMiddles]

theorem map_inlineLabels (f : Frame) (t : Timing Float) (tokens : List LabelToken) :
    (tokens.zipIdx.flatMap fun (token, i) =>
      match token with
      | .skip => []
      | .text s offset => inlineLabel f t (Float.ofNat i + offset) s).map
        (fun n => (n.tag?, Element.nodeText n)) =
      tokens.flatMap fun token =>
        match token with
        | .skip => []
        | .text s _ => [(some "rect", ""), (some "text", s)] := by
  rw [List.map_flatMap]
  conv_rhs => rw [← List.zipIdx_map_fst 0 tokens, List.flatMap_map]
  apply List.flatMap_congr
  rintro ⟨token, i⟩ _
  cases token with
  | skip => rfl
  | text s offset => simp [inlineLabel, Node.tag?, Element.nodeText, Element.nodesText]

theorem map_brackets (headHeight index : ℕ) (boxes : List GroupBox) :
    ∃ groups, Element.ofNode? (brackets headHeight index boxes) = some groups ∧
      groups.children.map (fun n => (n.tag?, Element.nodeText n)) =
        boxes.flatMap fun box =>
          (some "path", "") :: box.name.toList.map fun name => (some "g", name) := by
  refine ⟨_, rfl, ?_⟩
  conv_rhs => rw [← List.zipIdx_map_fst 0 boxes, List.flatMap_map]
  rw [group, List.map_flatMap]
  apply List.flatMap_congr
  rintro ⟨⟨name, x, y, height⟩, i⟩ _
  cases name with
  | none => rfl
  | some name =>
      simp [groupTitle, preserved, plainSpan, Node.tag?, Element.nodeText, Element.nodesText]

-- The wave of a row is the only part of its drawing that has an id.
theorem child?_draw (f : Frame) (index : ℕ) (row : Row) (bricks : List Brick) :
    ∃ draw,
      ((Element.ofNode? (waveRow f index row bricks)).bind fun wave =>
        wave.part? [s!"wavelane_draw_{row.number}_{index}"]) = some draw ∧
      draw.children = glyphs f.cell bricks ++ dataLabels f.cell bricks row.data := by
  have htitle : (titleText f.cell row.title).filterMap Node.id? = [] := by
    unfold titleText
    split <;> simp [preserved, Node.id?, Node.attr?]
  let wave := movedGroup s!"wavelane_draw_{row.number}_{index}"
    (translate (phaseOffset row.timing.phase * Float.ofNat f.cell.width) (some 0.0))
    (glyphs f.cell bricks ++ dataLabels f.cell bricks row.data)
  let whole := movedGroup s!"wavelane_{row.number}_{index}" (moveDown (Frame.rowY row.number))
    (titleText f.cell row.title ++ [wave.toNode])
  have hids : whole.childIds = [s!"wavelane_draw_{row.number}_{index}"] := by
    rw [Element.childIds]
    simp only [whole, movedGroup, List.filterMap_append, htitle, List.nil_append]
    rw [List.filterMap_cons_some (Diagram.id?_movedGroup _ _ _)]
    rfl
  have hnodup : whole.childIds.Nodup := by
    rw [hids]
    exact List.nodup_singleton _
  refine ⟨wave, ?_, rfl⟩
  change whole.part? _ = _
  rw [Element.part?_singleton]
  exact Element.child?_eq hnodup (List.mem_append_right _ (List.mem_singleton_self wave.toNode))
    (Diagram.id?_movedGroup _ _ _)

end Drawing

namespace Diagram

-- What the groups of a row hold that has a lane: the bricks of the lane and its labels for bus
-- values, a sign for each gap, and the inline labels unless these are left out.
structure HoldsLane (strict : Bool) (hscale index r : ℕ) (lanes : Element) (l : Lane) : Prop where
  wave : ∃ bricks draw uses texts,
    bricks = Wave.bricks l.wave (l.period * Float.ofNat hscale - 1.0) l.phase ∧
    lanes.part? [s!"wavelane_{r}_{index}", s!"wavelane_draw_{r}_{index}"] = some draw ∧
    draw.children = uses ++ texts ∧
    uses.map (fun n => (n.tag?, n.attr? "href")) =
      bricks.map (fun b => (some "use", some ("#" ++ b.name))) ∧
    texts.length = min (Drawing.busRuns bricks) l.data.length ∧
    texts.map (fun n => (n.tag?, Element.nodeText n)) =
      (l.data.take (Drawing.busRuns bricks)).map fun s => (some "text", s)
  gaps : ∃ gap,
    lanes.part? [s!"wavegaps_{index}", s!"wavegap_{r}_{index}"] = some gap ∧
    gap.children.map (fun n => (n.tag?, n.attr? "href")) =
      List.replicate (l.wave.toList.count '|') (some "use", some "#gap")
  labels : strict = false → ∃ labels,
    lanes.part? [s!"labels_{index}", s!"labels_{r}_{index}"] = some labels ∧
    labels.children.map (fun n => (n.tag?, Element.nodeText n)) =
      (l.label.getD []).flatMap fun token =>
        match token with
        | .skip => []
        | .text s _ => [(some "rect", ""), (some "text", s)]

-- The groups of a spacer are there but hold nothing.
structure HoldsNothing (strict : Bool) (index r : ℕ) (lanes : Element) : Prop where
  wave : ∃ draw,
    lanes.part? [s!"wavelane_{r}_{index}", s!"wavelane_draw_{r}_{index}"] = some draw ∧
    draw.children = []
  gaps : ∃ gap,
    lanes.part? [s!"wavegaps_{index}", s!"wavegap_{r}_{index}"] = some gap ∧ gap.children = []
  labels : strict = false → ∃ labels,
    lanes.part? [s!"labels_{index}", s!"labels_{r}_{index}"] = some labels ∧ labels.children = []

section Rows

variable (options : DrawingOptions) (d : Diagram) (index : ℕ) (parts : Parts) {r : ℕ} {row : Row}

theorem holdsLane (hrow : d.rows[r]? = some row) {l : Lane} (hlane : row.lane = some l) :
    HoldsLane options.strict d.hscale index r (d.lanesWith options index parts) l := by
  have hnumber := d.number_of_rows hrow
  obtain ⟨number, depth, lane⟩ := row
  subst hlane hnumber
  constructor
  · obtain ⟨draw, hdraw, hchildren⟩ := Drawing.child?_draw d.frame index ⟨number, depth, some l⟩
      (Row.bricks d.hscale l.timing ⟨number, depth, some l⟩)
    refine ⟨_, draw, _, _, rfl, ?_, hchildren, Drawing.map_glyphs _ _,
      Drawing.length_dataLabels _ _ _, Drawing.map_dataLabels _ _ _⟩
    rw [d.part?_wave options index parts hrow]
    exact hdraw
  · refine ⟨_, d.part?_gap options index parts hrow, ?_⟩
    rw [← Drawing.length_gapsFrom d.frame l.timing false 0.0 l.wave.toList, List.eq_replicate_iff]
    simp only [Drawing.movedGroup, List.map_map]
    refine ⟨List.length_map _, ?_⟩
    intro sign hsign
    obtain ⟨x, -, rfl⟩ := List.mem_map.mp hsign
    rfl
  · intro hstrict
    exact ⟨_, d.part?_label options index parts hstrict hrow,
      Drawing.map_inlineLabels d.frame l.timing (l.label.getD [])⟩

theorem holdsNothing (hrow : d.rows[r]? = some row) (hlane : row.lane = none) :
    HoldsNothing options.strict index r (d.lanesWith options index parts) := by
  have hnumber := d.number_of_rows hrow
  obtain ⟨number, depth, lane⟩ := row
  subst hlane hnumber
  constructor
  · obtain ⟨draw, hdraw, hchildren⟩ := Drawing.child?_draw d.frame index ⟨number, depth, none⟩ []
    refine ⟨draw, ?_, hchildren⟩
    rw [d.part?_wave options index parts hrow]
    exact hdraw
  · exact ⟨_, d.part?_gap options index parts hrow, rfl⟩
  · intro hstrict
    exact ⟨_, d.part?_label options index parts hstrict hrow, rfl⟩

end Rows

-- A drawing has one layer after the other over the rows of its outline, and each layer shows every
-- row and every box in order with all that it has.
theorem draw_layers (options : DrawingOptions) (d : Diagram) (index : ℕ) (t : Element)
    (h : d.draw options index = .ok t) :
    ∃ lanes groups : Element,
      t.part? [s!"waves_{index}", s!"lanes_{index}"] = some lanes ∧
      t.part? [s!"waves_{index}", s!"groups_{index}"] = some groups ∧
      lanes.children.map Node.heading =
        ((if options.strict then [] else [s!"labels_{index}"]) ++ [s!"gmarks_{index}"]
          ++ (List.range d.signal.outline.rows.length).map (fun r => s!"wavelane_{r}_{index}")
          ++ [s!"wavearcs_{index}", s!"wavegaps_{index}"]).map (fun id => (some "g", some id)) ∧
      (options.strict = false → ∃ labels,
        lanes.part? [s!"labels_{index}"] = some labels ∧
        labels.children.map Node.heading =
          (List.range d.signal.outline.rows.length).map fun r =>
            (some "g", some s!"labels_{r}_{index}")) ∧
      (∃ gaps,
        lanes.part? [s!"wavegaps_{index}"] = some gaps ∧
        gaps.children.map Node.heading =
          (List.range d.signal.outline.rows.length).map fun r =>
            (some "g", some s!"wavegap_{r}_{index}")) ∧
      (∀ r row l, d.signal.outline.rows[r]? = some row → row.lane = some l →
        HoldsLane options.strict d.hscale index r lanes l) ∧
      (∀ r row, d.signal.outline.rows[r]? = some row → row.lane = none →
        HoldsNothing options.strict index r lanes) ∧
      groups.children.map (fun n => (n.tag?, Element.nodeText n)) =
        d.signal.outline.boxes.flatMap fun box =>
          (some "path", "") :: box.name.toList.map fun name => (some "g", name) := by
  obtain ⟨parts, -, rfl⟩ := d.eq_sheetWith options index h
  obtain ⟨groups, hgroups, hbrackets⟩ :=
    Drawing.map_brackets d.frame.headHeight index d.signal.outline.boxes
  refine ⟨d.lanesWith options index parts, groups, d.part?_lanes options index parts [],
    ?_, ?_, ?_, ?_,
    ?_, ?_, hbrackets⟩
  · rw [part?_groups, hgroups]
  · exact d.map_heading_lanesWith options index parts
  · intro hstrict
    refine ⟨d.labelLayer index, ?_, ?_⟩
    · rw [Element.part?_singleton, d.child?_labelLayer options index parts hstrict]
    · exact d.map_heading_rows index _ "labels" fun _ => heading_movedGroup _ _ _
  · refine ⟨d.gapLayer index, ?_, ?_⟩
    · rw [Element.part?_singleton, d.child?_gapLayer options index parts]
    · exact d.map_heading_rows index _ "wavegap" fun _ => heading_movedGroup _ _ _
  · intro r row l hrow hlane
    exact d.holdsLane options index parts hrow hlane
  · intro r row hrow hlane
    exact d.holdsNothing options index parts hrow hlane

-- A spacer, and a bus with two runs and one label for them inside a titled group.
theorem draw_layers_grouped_bus :
    let bus : Lane := { wave := "=x|=", data := ["a"], label := some [.skip, .text "go" 0.0] }
    let d : Diagram := { signal := { entries := [.spacer, .group (some "g") [.lane bus]] } }
    ∃ t lanes groups : Element,
      d.draw {} 2 = .ok t ∧
      t.part? ["waves_2", "lanes_2"] = some lanes ∧
      t.part? ["waves_2", "groups_2"] = some groups ∧
      lanes.children.map Node.heading =
        ["labels_2", "gmarks_2", "wavelane_0_2", "wavelane_1_2", "wavearcs_2", "wavegaps_2"].map
          (fun id => (some "g", some id)) ∧
      HoldsNothing false 2 0 lanes ∧ HoldsLane false 1 2 1 lanes bus ∧
      groups.children.map (fun n => (n.tag?, Element.nodeText n)) =
        [(some "path", ""), (some "g", "g")] := by
  intro bus d
  obtain ⟨parts, hparts⟩ : ∃ parts, d.parts = .ok parts := ⟨_, rfl⟩
  have ht := d.draw_of_parts {} 2 hparts
  obtain ⟨lanes, groups, hlanes, hgroups, hlayers, -, -, hlane, hspacer, hboxes⟩ :=
    draw_layers {} d 2 _ ht
  have hnames : (if ({} : DrawingOptions).strict then [] else [s!"labels_{2}"]) ++ [s!"gmarks_{2}"]
      ++ (List.range d.signal.outline.rows.length).map (fun r => s!"wavelane_{r}_{2}")
      ++ [s!"wavearcs_{2}", s!"wavegaps_{2}"] =
      ["labels_2", "gmarks_2", "wavelane_0_2", "wavelane_1_2", "wavearcs_2", "wavegaps_2"] := by
    decide
  rw [hnames] at hlayers
  exact ⟨_, lanes, groups, ht, hlanes, hgroups, hlayers, hspacer 0 _ rfl rfl, hlane 1 _ bus rfl rfl,
    hboxes⟩

end Diagram

end TimingDiagram
