import TimingDiagram.Proofs.Markup.NumberedName
import TimingDiagram.Proofs.Markup.Placed
import TimingDiagram.Proofs.Drawing.Assembly
import TimingDiagram.Proofs.Drawing.TickLabels

namespace TimingDiagram

namespace Drawing

theorem ids_group (id : String) (children : List Node) :
    (group id children).toNode.ids = id :: idsIn children := by
  simp [group, Element.toNode]

theorem ids_movedGroup (id move : String) (children : List Node) :
    (movedGroup id move children).toNode.ids = id :: idsIn children := by
  simp [movedGroup, Element.toNode]

section Exempt

variable {exempt : Placed → Prop} [DecidablePred exempt] {id : String} {children : List Node}
  {ids : List String}

theorem idsBut_group (h : (idsBut exempt (some id) children).Sublist ids)
    (around : Option String) :
    (idsBut exempt around [(group id children).toNode]).Sublist (id :: ids) :=
  idsBut_element exempt around "g" [("id", id)] (by rwa [List.lookup_cons_self])

theorem idsBut_movedGroup (h : (idsBut exempt (some id) children).Sublist ids) (move : String)
    (around : Option String) :
    (idsBut exempt around [(movedGroup id move children).toNode]).Sublist (id :: ids) :=
  idsBut_element exempt around "g" [("id", id), ("transform", move)]
    (by rwa [List.lookup_cons_self])

end Exempt

theorem ids_boxedLabel {centre : Point Float} {s : String} {label : Node}
    (h : boxedLabel centre s = .ok label) : label.ids = [] := by
  obtain ⟨textWidth, -, rfl⟩ := map_eq_ok.mp h
  simp

theorem idsIn_boxed {α : Type} {centre : α → Point Float} {text : α → String} {items : List α}
    {labels : List Node}
    (h : List.Forall₂ (fun a label => boxedLabel (centre a) (text a) = .ok label) items labels) :
    idsIn labels = [] := by
  apply idsIn_eq_nil
  intro n hn
  obtain ⟨p, s, hlabel⟩ := exists_of_mem_boxed h n hn
  exact ids_boxedLabel hlabel

section Rows

variable (f : Frame) (index : ℕ) (t : Timing Float) (row : Row)

theorem ids_labelRow :
    (labelRow f index t row).ids = [NumberedName.text ⟨"labels", [row.number, index]⟩] := by
  rw [labelRow, ids_movedGroup, idsIn_eq_nil]
  · rfl
  · intro n hn
    obtain ⟨⟨token, i⟩, -, hn⟩ := List.mem_flatMap.mp hn
    cases token with
    | skip => cases hn
    | text s offset =>
        simp only [inlineLabel, List.mem_cons, List.not_mem_nil, or_false] at hn
        rcases hn with rfl | rfl <;> simp

theorem ids_gapRow :
    (gapRow f index t row).ids = [NumberedName.text ⟨"wavegap", [row.number, index]⟩] := by
  rw [gapRow, ids_movedGroup, idsIn_eq_nil]
  · rfl
  · intro n hn
    cases hlane : row.lane with
    | none =>
        rw [hlane] at hn
        cases hn
    | some l =>
        rw [hlane] at hn
        obtain ⟨x, -, rfl⟩ := List.mem_map.mp hn
        simp

theorem ids_waveRow (bricks : List Brick) :
    (waveRow f index row bricks).ids =
      [NumberedName.text ⟨"wavelane", [row.number, index]⟩,
        NumberedName.text ⟨"wavelane_draw", [row.number, index]⟩] := by
  have htitle : idsIn (titleText f.cell row.title) = [] := by
    unfold titleText
    split <;> simp [preserved, plainSpan]
  have hglyphs : idsIn (glyphs f.cell bricks) = [] := by
    simp [glyphs, idsIn_map]
  have hlabels : idsIn (dataLabels f.cell bricks row.data) = [] := by
    simp [dataLabels, idsIn_map, preserved, plainSpan]
  rw [waveRow, ids_movedGroup, idsIn_append, htitle, idsIn, ids_movedGroup, idsIn_append, hglyphs,
    hlabels]
  rfl

end Rows

theorem ids_brackets (headHeight index : ℕ) (boxes : List GroupBox) :
    (brackets headHeight index boxes).ids =
      (⟨"groups", [index]⟩ :: NumberedName.parts ["group"] boxes.length index).map
        NumberedName.text := by
  have hboxes : List.range boxes.length = boxes.zipIdx.map Prod.snd := by
    rw [List.zipIdx_map_snd, List.range_eq_range']
  rw [brackets, ids_group, idsIn_flatMap, List.map_cons, NumberedName.map_text_parts, hboxes,
    List.flatMap_map]
  congr 1
  apply List.flatMap_congr
  rintro ⟨box, i⟩ _
  cases hname : box.name with
  | none =>
      simp [hname]
      rfl
  | some name =>
      simp [hname, groupTitle, preserved, plainSpan]
      rfl

theorem idsIn_markLines (f : Frame) (length rows index : ℕ) :
    idsIn (markLines f length rows index) =
      (NumberedName.parts ["gmark"] (wholeCycles f length + 1) index).map NumberedName.text := by
  rw [markLines, idsIn_map, NumberedName.map_text_parts]
  apply List.flatMap_congr
  intro i _
  simp
  rfl

theorem idsIn_markLabels {f : Frame} {d : Diagram} {length rows : ℕ} {nodes : List Node}
    (h : markLabels f d length rows = .ok nodes) : idsIn nodes = [] := by
  apply idsIn_eq_nil
  intro n hn
  obtain ⟨x, y, i, s, rfl⟩ := exists_of_mem_markLabels f h n hn
  simp [tickLabelAt]

theorem idsIn_shared (options : DrawingOptions) (skin : Skin) (index : ℕ) :
    idsIn (shared options skin index) =
      (if index = 0 then [⟨"arrowhead", []⟩, ⟨"arrowtail", []⟩] else []).map
        NumberedName.text := by
  unfold shared
  split
  · cases options.glyphs <;> simp [Skin.markers, Skin.marker, Element.toNode] <;> exact ⟨rfl, rfl⟩
  · rfl

end Drawing

namespace Diagram

-- Captions that bring no markup of their own.
def HasPlainCaptions (d : Diagram) : Prop :=
  ∀ axis, d.head = some axis ∨ d.foot = some axis → ∀ markup, axis.text ≠ some (.rich markup)

-- The path of an edge in the layer of the connectors.
def IsConnector (d : Diagram) (index : ℕ) (p : Placed) : Prop :=
  p.around = some s!"wavearcs_{index}" ∧ p.element.tag = "path" ∧
    ∃ e ∈ d.edges, p.id? = some s!"gmark_{e.source}_{e.target}"

instance (d : Diagram) (index : ℕ) : DecidablePred (d.IsConnector index) := fun p =>
  inferInstanceAs (Decidable (p.around = some s!"wavearcs_{index}" ∧ p.element.tag = "path" ∧
    ∃ e ∈ d.edges, p.id? = some s!"gmark_{e.source}_{e.target}"))

section Page

variable (options : DrawingOptions) (d : Diagram) (index : ℕ)

-- The ids of the layers in document order, those of connectors apart.
def layerNames : List NumberedName :=
  ⟨"lanes", [index]⟩ ::
    ((if options.strict then [] else
        ⟨"labels", [index]⟩ :: NumberedName.parts ["labels"] d.rows.length index)
      ++ ⟨"gmarks", [index]⟩ :: NumberedName.parts ["gmark"]
        (Drawing.wholeCycles d.frame d.longest + 1) index
      ++ NumberedName.parts ["wavelane", "wavelane_draw"] d.rows.length index
      ++ ⟨"wavearcs", [index]⟩ :: ⟨"wavegaps", [index]⟩ ::
        NumberedName.parts ["wavegap"] d.rows.length index)

-- The ids of the whole drawing.
def pageNames : List NumberedName :=
  ⟨"svgcontent", [index]⟩ ::
    ((if index = 0 then [⟨"arrowhead", []⟩, ⟨"arrowtail", []⟩] else [])
      ++ ⟨"waves", [index]⟩ ::
        (d.layerNames options index
        ++ ⟨"groups", [index]⟩ ::
          NumberedName.parts ["group"] d.signal.outline.boxes.length index))

-- Every name is the one of a marker, of the page or of one of its parts.
theorem forall_mem_pageNames {P : NumberedName → Prop}
    (hmarker : index = 0 → P ⟨"arrowhead", []⟩ ∧ P ⟨"arrowtail", []⟩)
    (hpage : ∀ word ∈ ["svgcontent", "waves", "lanes", "labels", "gmarks", "wavearcs", "wavegaps",
      "groups"], P ⟨word, [index]⟩)
    (hpart : ∀ word ∈ ["labels", "gmark", "wavelane", "wavelane_draw", "wavegap", "group"],
      ∀ n, P ⟨word, [n, index]⟩) :
    ∀ name ∈ d.pageNames options index, P name := by
  simp only [List.mem_cons, List.not_mem_nil, or_false, forall_eq_or_imp, forall_eq] at hpage
  obtain ⟨hsheet, hcontent, hlanes, hlabelLayer, hmarks, harcs, hgapLayer, hbrackets⟩ := hpage
  have hparts : ∀ words count, words ⊆ ["labels", "gmark", "wavelane", "wavelane_draw", "wavegap",
      "group"] → ∀ name ∈ NumberedName.parts words count index, P name := fun words count hwords =>
    NumberedName.forall_mem_parts fun word hword => hpart word (hwords hword)
  have hmarkers : ∀ name ∈ (if index = 0 then [⟨"arrowhead", []⟩, ⟨"arrowtail", []⟩] else []),
      P name := by
    by_cases hindex : index = 0
    · simpa [hindex] using hmarker hindex
    · simp [hindex]
  have hlabels : ∀ name ∈ (if options.strict then [] else
      ⟨"labels", [index]⟩ :: NumberedName.parts ["labels"] d.rows.length index), P name := by
    cases options.strict
    · simpa [hlabelLayer] using hparts ["labels"] d.rows.length (by decide)
    · simp
  simp only [pageNames, layerNames, List.mem_cons, List.mem_append, or_imp, forall_and, forall_eq]
  exact ⟨hsheet, hmarkers, hcontent,
    ⟨hlanes, ⟨⟨hlabels, hmarks, hparts ["gmark"] _ (by decide)⟩,
        hparts ["wavelane", "wavelane_draw"] _ (by decide)⟩,
      harcs, hgapLayer, hparts ["wavegap"] _ (by decide)⟩,
    hbrackets, hparts ["group"] _ (by decide)⟩

theorem nodup_pageNames : (d.pageNames options index).Nodup := by
  unfold pageNames layerNames
  split <;> split <;> simp [List.nodup_append', NumberedName.mem_parts]

section Connectors

variable {d} {index}

-- All that has an id among the connectors is the path of an edge.
theorem idsBut_edgeDrawn {found : List (Char × Point Float)} {e : Edge} {nodes : List Node}
    (he : e ∈ d.edges) (h : Drawing.EdgeDrawn found e nodes) :
    idsBut (d.IsConnector index) (some s!"wavearcs_{index}") nodes = [] := by
  obtain ⟨source, target, labels, -, -, hlabels, rfl⟩ := h
  rw [← List.singleton_append, idsBut_append,
    idsBut_eq_nil_of_idsIn (Drawing.idsIn_boxed hlabels), List.append_nil]
  apply idsBut_eq_nil
  intro p hp _
  rw [List.mem_singleton.mp hp]
  exact ⟨rfl, rfl, e, he, rfl⟩

theorem idsBut_connectors {found : List (Char × Point Float)} {nodes : List Node}
    (h : Drawing.connectors found d.edges = .ok nodes) :
    idsBut (d.IsConnector index) (some s!"wavearcs_{index}") nodes = [] := by
  obtain ⟨drawn, names, hdrawn, hnames, rfl⟩ := Drawing.drawn_of_connectors h
  have hedges : ∀ {edges drawn}, (∀ e ∈ edges, e ∈ d.edges) →
      List.Forall₂ (Drawing.EdgeDrawn found) edges drawn →
      idsBut (d.IsConnector index) (some s!"wavearcs_{index}") drawn.flatten = [] := by
    intro edges drawn hmem hdrawn
    induction hdrawn with
    | nil => rfl
    | cons hfirst _ ih =>
        obtain ⟨he, hrest⟩ := List.forall_mem_cons.mp hmem
        rw [List.flatten_cons, idsBut_append, idsBut_edgeDrawn he hfirst, ih hrest, List.append_nil]
  rw [idsBut_append, hedges (fun _ he => he) hdrawn,
    idsBut_eq_nil_of_idsIn (Drawing.idsIn_boxed hnames), List.append_nil]

end Connectors

theorem ids_marks (hcaptions : d.HasPlainCaptions) {labels : List Node}
    (hlabels : idsIn labels = []) :
    (Drawing.marks d.frame d d.longest d.rows.length index labels).ids =
      (⟨"gmarks", [index]⟩ :: NumberedName.parts ["gmark"]
        (Drawing.wholeCycles d.frame d.longest + 1) index).map NumberedName.text := by
  have hcaption : ∀ axis, axis = d.head ∨ axis = d.foot → ∀ text, axis.bind (·.text) = some text →
      ∀ x y, (Drawing.captionText text x y).ids = [] := by
    intro axis haxis text htext x y
    obtain ⟨a, ha, htext⟩ := Option.bind_eq_some_iff.mp htext
    cases text with
    | plain s => simp [Drawing.captionText, Drawing.preserved, Drawing.plainSpan]
    | rich markup =>
        refine absurd htext (hcaptions a ?_ markup)
        rcases haxis with rfl | rfl
        · exact Or.inl ha
        · exact Or.inr ha
  have hhead := hcaption d.head (Or.inl rfl)
  have hfoot := hcaption d.foot (Or.inr rfl)
  simp only [Drawing.marks, Drawing.ids_group, idsIn_append, Drawing.idsIn_markLines,
    hlabels, List.append_nil]
  generalize d.head.bind (·.text) = head at hhead ⊢
  generalize d.foot.bind (·.text) = foot at hfoot ⊢
  cases head <;> cases foot <;> simp [hhead, hfoot] <;> rfl

section Layers

variable {draw : Row → Node} (names : ℕ → List NumberedName)

-- What is drawn for each row, one after the other, has the names of the rows.
theorem idsIn_rows (h : ∀ row, (draw row).ids = (names row.number).map NumberedName.text) :
    idsIn (d.rows.map draw) =
      ((List.range d.rows.length).flatMap names).map NumberedName.text := by
  rw [← d.map_number_rows, List.flatMap_map, List.map_flatMap, idsIn_map]
  exact List.flatMap_congr fun row _ => h row

theorem ids_labelLayer :
    (d.labelLayer index).toNode.ids =
      (⟨"labels", [index]⟩ :: NumberedName.parts ["labels"] d.rows.length index).map
        NumberedName.text := by
  rw [labelLayer, Drawing.ids_group, d.idsIn_rows (fun r => [⟨"labels", [r, index]⟩])
    fun row => Drawing.ids_labelRow d.frame index row.timing row]
  rfl

theorem idsIn_waves :
    idsIn (d.waves index) =
      (NumberedName.parts ["wavelane", "wavelane_draw"] d.rows.length index).map
        NumberedName.text :=
  d.idsIn_rows (fun r => [⟨"wavelane", [r, index]⟩, ⟨"wavelane_draw", [r, index]⟩])
    fun row => Drawing.ids_waveRow d.frame index row (row.bricks d.hscale row.timing)

theorem ids_gapLayer :
    (d.gapLayer index).toNode.ids =
      (⟨"wavegaps", [index]⟩ :: NumberedName.parts ["wavegap"] d.rows.length index).map
        NumberedName.text := by
  rw [gapLayer, Drawing.ids_group, d.idsIn_rows (fun r => [⟨"wavegap", [r, index]⟩])
    fun row => Drawing.ids_gapRow d.frame index row.timing row]
  rfl

end Layers

section Walk

variable {d} {parts : Parts}

theorem ids_of_parts (h : d.parts = .ok parts) :
    idsIn parts.labels = [] ∧
      idsBut (d.IsConnector index) (some s!"wavearcs_{index}") parts.connectors = [] := by
  obtain ⟨column, -, h⟩ := bind_eq_ok.mp h
  obtain ⟨labels, hlabels, h⟩ := bind_eq_ok.mp h
  obtain ⟨connectors, hconnectors, h⟩ := bind_eq_ok.mp h
  cases h
  exact ⟨Drawing.idsIn_markLabels (mapError_eq_ok.mp hlabels), idsBut_connectors hconnectors⟩

theorem sublist_layerNames (hcaptions : d.HasPlainCaptions) (hparts : d.parts = .ok parts)
    (around : Option String) :
    (idsBut (d.IsConnector index) around [(d.lanesWith options index parts).toNode]).Sublist
      ((d.layerNames options index).map NumberedName.text) := by
  obtain ⟨hmarks, hconnectors⟩ := ids_of_parts index hparts
  have hlabels : idsIn (if options.strict then [] else [(d.labelLayer index).toNode]) =
      (if options.strict then [] else
        ⟨"labels", [index]⟩ :: NumberedName.parts ["labels"] d.rows.length index).map
          NumberedName.text := by
    cases options.strict
    · simp [ids_labelLayer]
    · rfl
  have hbefore : idsIn ((if options.strict then [] else [(d.labelLayer index).toNode])
      ++ [Drawing.marks d.frame d d.longest d.rows.length index parts.labels] ++ d.waves index) =
        ((if options.strict then [] else
            ⟨"labels", [index]⟩ :: NumberedName.parts ["labels"] d.rows.length index)
          ++ ⟨"gmarks", [index]⟩ :: NumberedName.parts ["gmark"]
            (Drawing.wholeCycles d.frame d.longest + 1) index
          ++ NumberedName.parts ["wavelane", "wavelane_draw"] d.rows.length index).map
            NumberedName.text := by
    simp only [idsIn_append, idsIn, hlabels, d.ids_marks index hcaptions hmarks,
      d.idsIn_waves index,
      List.map_append, List.append_nil]
  have harcs : (idsBut (d.IsConnector index) (some s!"lanes_{index}")
      [(Drawing.group s!"wavearcs_{index}" parts.connectors).toNode]).Sublist
        [NumberedName.text ⟨"wavearcs", [index]⟩] :=
    Drawing.idsBut_group (by rw [hconnectors]) _
  have hgaps : (idsBut (d.IsConnector index) (some s!"lanes_{index}")
      [(d.gapLayer index).toNode]).Sublist
        ((⟨"wavegaps", [index]⟩ :: NumberedName.parts ["wavegap"] d.rows.length index).map
          NumberedName.text) :=
    idsBut_sublist_of_eq (by rw [idsIn, idsIn, List.append_nil, ids_gapLayer])
  rw [layerNames, List.map_cons, List.map_append]
  exact Drawing.idsBut_movedGroup (idsBut_append_sublist (idsBut_sublist_of_eq hbefore)
    (idsBut_append_sublist harcs hgaps)) _ around

end Walk

theorem sublist_pageNames (hcaptions : d.HasPlainCaptions) {parts : Parts}
    (hparts : d.parts = .ok parts) :
    (idsBut (d.IsConnector index) none [(d.sheetWith options index parts).toNode]).Sublist
      ((d.pageNames options index).map NumberedName.text) := by
  have hbrackets : idsIn [Drawing.brackets d.frame.headHeight index d.signal.outline.boxes] =
      (⟨"groups", [index]⟩ :: NumberedName.parts ["group"] d.signal.outline.boxes.length index).map
        NumberedName.text := by
    rw [idsIn, idsIn, List.append_nil, Drawing.ids_brackets]
  have hcontent := Drawing.idsBut_group (idsBut_append_sublist
    (sublist_layerNames options index hcaptions hparts (some s!"waves_{index}"))
    (idsBut_sublist_of_eq hbrackets)) (some s!"svgcontent_{index}")
  have hshared : (idsBut (d.IsConnector index) (some s!"svgcontent_{index}")
      (Drawing.shared options (Skin.lookup d.skin) index)).Sublist _ :=
    idsBut_sublist_of_eq (Drawing.idsIn_shared options (Skin.lookup d.skin) index)
  have hid : (d.sheetWith options index parts).attrs.lookup "id" = some s!"svgcontent_{index}" := by
    simp [sheetWith]
  have hsheet := idsBut_element (d.IsConnector index) none "svg"
    (d.sheetWith options index parts).attrs (hid ▸ idsBut_append_sublist hshared hcontent)
  rw [hid] at hsheet
  rw [pageNames, List.map_cons, List.map_append, List.map_cons, List.map_append]
  exact hsheet

end Page

end Diagram

end TimingDiagram
