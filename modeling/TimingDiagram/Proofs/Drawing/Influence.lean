import TimingDiagram.Proofs.Markup.Renumbered
import TimingDiagram.Proofs.Drawing.Assembly

namespace TimingDiagram

-- The style and the definitions of a page.
def Node.isShared (n : Node) : Bool := n.tag? == some "style" || n.tag? == some "defs"

namespace Diagram

section Options

variable (d : Diagram) (glyphs : Option String) (index : ℕ) (parts : Parts)

theorem children_lanesWith_relaxed :
    (d.lanesWith { glyphs := glyphs } index parts).children =
      (d.labelLayer index).toNode ::
        (d.lanesWith { strict := true, glyphs := glyphs } index parts).children := rfl

theorem not_labels_of_mem_strict {n : Node}
    (hn : n ∈ (d.lanesWith { strict := true, glyphs := glyphs } index parts).children) :
    (n.id? == some s!"labels_{index}") = false := by
  have hmem := List.mem_map_of_mem (f := Node.heading) hn
  rw [map_heading_lanesWith] at hmem
  obtain ⟨id, hid, hheading⟩ := List.mem_map.mp hmem
  have hnodup : (s!"labels_{index}" :: layerIds true d.rows.length index).Nodup :=
    nodup_layerIds index false d.rows.length
  have hne : id ≠ s!"labels_{index}" := by
    rintro rfl
    exact (List.nodup_cons.mp hnodup).1 hid
  have hn : n.id? = some id := (congrArg Prod.snd hheading).symm
  rw [hn]
  simpa using hne

theorem removeChildren_lanesWith :
    (d.lanesWith { glyphs := glyphs } index parts).removeChildren
        (fun n => n.id? == some s!"labels_{index}") =
      d.lanesWith { strict := true, glyphs := glyphs } index parts := by
  have hlabels : (!(d.labelLayer index).toNode.id? == some s!"labels_{index}") = false := by
    rw [labelLayer, id?_group]
    simp
  have hrest : (d.lanesWith { strict := true, glyphs := glyphs } index parts).children.filter
      (fun n => !n.id? == some s!"labels_{index}") =
      (d.lanesWith { strict := true, glyphs := glyphs } index parts).children := by
    rw [List.filter_eq_self]
    intro n hn
    rw [d.not_labels_of_mem_strict glyphs index parts hn]
    rfl
  rw [Element.removeChildren, children_lanesWith_relaxed, List.filter_cons, hlabels,
    if_neg Bool.false_ne_true, hrest]
  rfl

theorem countP_labels :
    (d.lanesWith { glyphs := glyphs } index parts).children.countP
      (fun n => n.id? == some s!"labels_{index}") = 1 := by
  have hlabels : ((d.labelLayer index).toNode.id? == some s!"labels_{index}") = true := by
    rw [labelLayer, id?_group]
    simp
  have hrest : (d.lanesWith { strict := true, glyphs := glyphs } index parts).children.countP
      (fun n => n.id? == some s!"labels_{index}") = 0 := by
    rw [List.countP_eq_zero]
    intro n hn
    rw [d.not_labels_of_mem_strict glyphs index parts hn]
    exact Bool.false_ne_true
  rw [children_lanesWith_relaxed, List.countP_cons, hrest, hlabels]
  rfl

-- The children of a drawing before its waves are not found by any id.
theorem id?_shared (options : DrawingOptions) {n : Node} (id : String)
    (hn : n ∈ Drawing.shared options (Skin.lookup d.skin) index) : (n.id? == some id) = false := by
  unfold Drawing.shared at hn
  split at hn
  · rcases List.mem_cons.mp hn with rfl | hn
    · rfl
    · rw [List.mem_singleton.mp hn]
      rfl
  · exact absurd hn List.not_mem_nil

theorem sheetWith_strict :
    (d.sheetWith { glyphs := glyphs } index parts).changePart
        (Element.removeChildren fun n => n.id? == some s!"labels_{index}")
        [s!"waves_{index}", s!"lanes_{index}"] =
      d.sheetWith { strict := true, glyphs := glyphs } index parts := by
  have hbrackets : ∀ n ∈ [Drawing.brackets d.frame.headHeight index d.signal.outline.boxes],
      (n.id? == some s!"lanes_{index}") = false := by
    intro n hn
    rw [List.mem_singleton.mp hn, Drawing.brackets, id?_group]
    simp [String.ext_iff, toString_string]
  have hlanes : ((d.lanesWith { glyphs := glyphs } index parts).toNode.id? ==
      some s!"lanes_{index}") = true := by
    rw [lanesWith, id?_movedGroup]
    simp
  have hcontent : ((d.contentWith { glyphs := glyphs } index parts).toNode.id? ==
      some s!"waves_{index}") = true := by
    rw [contentWith, id?_group]
    simp
  rw [Element.changePart, Element.changeChildren_eq _ rfl
    (fun n hn => d.id?_shared index _ _ hn) hcontent (by simp), Element.changePart,
    Element.changeChildren_eq _ (show _ = [] ++ _ from rfl) (by simp) hlanes hbrackets,
    Element.changePart, removeChildren_lanesWith]
  rfl

theorem sheetWith_glyphs (strict : Bool) (markup : String) :
    d.sheetWith { strict := strict, glyphs := some markup } index parts =
      if index = 0 then
        (d.sheetWith { strict := strict } index parts).changeChildren
          (fun n => n.tag? == some "defs") fun defs => defs.add (.raw markup)
      else d.sheetWith { strict := strict } index parts := by
  by_cases hindex : index = 0
  · subst hindex
    rw [if_pos rfl]
    let style : Node := .element "style" [] [.text (Skin.lookup d.skin).style]
    let defs : Element :=
      { tag := "defs", children := (Skin.lookup d.skin).markers.map Element.toNode ++ [] }
    have hchildren : (d.sheetWith { strict := strict } 0 parts).children =
        [style] ++ defs.toNode :: [(d.contentWith { strict := strict } 0 parts).toNode] := rfl
    rw [Element.changeChildren_eq _ hchildren]
    · simp only [defs, Element.add, List.append_nil]
      rfl
    · intro n hn
      rw [List.mem_singleton.mp hn]
      rfl
    · rfl
    · intro n hn
      rw [List.mem_singleton.mp hn]
      rfl
  · rw [if_neg hindex]
    simp only [sheetWith, Drawing.shared, if_neg hindex]
    rfl

theorem countP_shared (options : DrawingOptions) {tag : String}
    (htag : tag = "style" ∨ tag = "defs") :
    (d.sheetWith options index parts).children.countP (fun n => n.tag? == some tag) =
      if index = 0 then 1 else 0 := by
  rw [sheetWith, List.countP_append, Drawing.shared]
  rcases htag with rfl | rfl
  · split <;> rfl
  · split <;> rfl

end Options

section Pages

variable {i j : ℕ}

theorem renumbered_labelRow (f : Frame) (t : Timing Float) (row : Row) :
    Renumbered i j [Drawing.labelRow f i t row] [Drawing.labelRow f j t row] :=
  .numbered "g" s!"labels_{row.number}" _ (.refl _)

theorem renumbered_gapRow (f : Frame) (t : Timing Float) (row : Row) :
    Renumbered i j [Drawing.gapRow f i t row] [Drawing.gapRow f j t row] :=
  .numbered "g" s!"wavegap_{row.number}" _ (.refl _)

theorem renumbered_waveRow (f : Frame) (row : Row) (bricks : List Brick) :
    Renumbered i j [Drawing.waveRow f i row bricks] [Drawing.waveRow f j row bricks] :=
  .numbered "g" s!"wavelane_{row.number}" _
    ((Renumbered.refl _).append (.numbered "g" s!"wavelane_draw_{row.number}" _ (.refl _)))

theorem renumbered_marks (f : Frame) (d : Diagram) (length rows : ℕ) (labels : List Node) :
    Renumbered i j [Drawing.marks f d length rows i labels]
      [Drawing.marks f d length rows j labels] := by
  have hlines : Renumbered i j (Drawing.markLines f length rows i)
      (Drawing.markLines f length rows j) :=
    .map (fun n => .numbered "path" s!"gmark_{n}" _ .nil) _
  exact .numbered "g" "gmarks" _
    (((hlines.append (.refl _)).append (.refl _)).append (.refl labels))

theorem renumbered_brackets (headHeight : ℕ) (boxes : List GroupBox) :
    Renumbered i j [Drawing.brackets headHeight i boxes] [Drawing.brackets headHeight j boxes] := by
  refine .numbered "g" "groups" _ (.flatMap ?_ _)
  rintro ⟨box, n⟩
  exact (Renumbered.numbered "path" s!"group_{n}" _ .nil).append (.refl _)

theorem renumbered_labelLayer (d : Diagram) :
    Renumbered i j [(d.labelLayer i).toNode] [(d.labelLayer j).toNode] := by
  refine .numbered "g" "labels" [] (.map ?_ d.rows)
  intro row
  exact renumbered_labelRow d.frame row.timing row

theorem renumbered_waves (d : Diagram) : Renumbered i j (d.waves i) (d.waves j) :=
  .map (fun row => renumbered_waveRow d.frame row (row.bricks d.hscale row.timing)) d.rows

theorem renumbered_gapLayer (d : Diagram) :
    Renumbered i j [(d.gapLayer i).toNode] [(d.gapLayer j).toNode] := by
  refine .numbered "g" "wavegaps" [] (.map ?_ d.rows)
  intro row
  exact renumbered_gapRow d.frame row.timing row

theorem renumbered_lanesWith (d : Diagram) (parts : Parts) (strict : Bool)
    (glyphs glyphs' : Option String) :
    Renumbered i j [(d.lanesWith { strict := strict, glyphs := glyphs } i parts).toNode]
      [(d.lanesWith { strict := strict, glyphs := glyphs' } j parts).toNode] := by
  refine .numbered "g" "lanes" _ (.append (.append (.append ?_ ?_) (renumbered_waves d)) ?_)
  · cases strict
    · exact renumbered_labelLayer d
    · exact .nil
  · exact renumbered_marks d.frame d d.longest d.rows.length parts.labels
  · exact (Renumbered.numbered "g" "wavearcs" [] (.refl parts.connectors)).append
      (renumbered_gapLayer d)

theorem removeChildren_sheetWith (options : DrawingOptions) (d : Diagram) (parts : Parts) :
    (d.sheetWith options i parts).removeChildren Node.isShared =
      { d.sheetWith options i parts with
        children := [(d.contentWith options i parts).toNode] } := by
  have hshared : (Drawing.shared options (Skin.lookup d.skin) i).filter
      (fun n => !n.isShared) = [] := by
    unfold Drawing.shared
    split <;> rfl
  have hchildren : (d.sheetWith options i parts).children =
      Drawing.shared options (Skin.lookup d.skin) i
        ++ [(d.contentWith options i parts).toNode] := rfl
  rw [Element.removeChildren, hchildren, List.filter_append, hshared]
  rfl

theorem renumbered_sheetWith (d : Diagram) (parts : Parts) (strict : Bool)
    (glyphs glyphs' : Option String) :
    Renumbered i j
      [((d.sheetWith { strict := strict, glyphs := glyphs } i parts).removeChildren
        Node.isShared).toNode]
      [((d.sheetWith { strict := strict, glyphs := glyphs' } j parts).removeChildren
        Node.isShared).toNode] := by
  rw [removeChildren_sheetWith, removeChildren_sheetWith]
  refine .numbered "svg" "svgcontent" _ (.numbered "g" "waves" [] ?_)
  exact (renumbered_lanesWith d parts strict glyphs glyphs').append (renumbered_brackets _ _)

end Pages

-- Strict drawings lack the layer of inline labels and nothing else, glyphs are added to the
-- definitions of the first page and to nothing else, and the number of a page is seen in ids alone.
theorem draw_options (d : Diagram) (strict : Bool) (glyphs glyphs' : Option String)
    (markup : String) (i j : ℕ) :
    (d.draw { strict := true, glyphs := glyphs } i =
        (d.draw { strict := false, glyphs := glyphs } i).map
          (Element.changePart
            (Element.removeChildren fun n => n.id? == some s!"labels_{i}")
            [s!"waves_{i}", s!"lanes_{i}"]) ∧
      ∀ t, d.draw { strict := false, glyphs := glyphs } i = .ok t →
        ∃ lanes, t.part? [s!"waves_{i}", s!"lanes_{i}"] = some lanes ∧
          lanes.children.countP (fun n => n.id? == some s!"labels_{i}") = 1) ∧
    (d.draw { strict := strict, glyphs := some markup } i =
        (d.draw { strict := strict, glyphs := none } i).map (fun t =>
          if i = 0 then
            t.changeChildren (fun n => n.tag? == some "defs") fun defs => defs.add (.raw markup)
          else t) ∧
      ∀ t, d.draw { strict := strict, glyphs := none } i = .ok t →
        t.children.countP (fun n => n.tag? == some "style") = (if i = 0 then 1 else 0) ∧
        t.children.countP (fun n => n.tag? == some "defs") = (if i = 0 then 1 else 0)) ∧
    ((∃ err, d.draw { strict := strict, glyphs := glyphs } i = .error err ∧
        d.draw { strict := strict, glyphs := glyphs' } j = .error err) ∨
      ∃ t u, d.draw { strict := strict, glyphs := glyphs } i = .ok t ∧
        d.draw { strict := strict, glyphs := glyphs' } j = .ok u ∧
        Renumbered i j [(t.removeChildren Node.isShared).toNode]
          [(u.removeChildren Node.isShared).toNode]) := by
  refine ⟨⟨?_, ?_⟩, ⟨?_, ?_⟩, ?_⟩
  · simp only [draw_eq]
    cases d.parts with
    | error err => rfl
    | ok parts => exact congrArg Except.ok (d.sheetWith_strict glyphs i parts).symm
  · intro t ht
    obtain ⟨parts, -, rfl⟩ := d.eq_sheetWith _ i ht
    exact ⟨_, d.part?_lanes _ i parts [], d.countP_labels glyphs i parts⟩
  · simp only [draw_eq]
    cases d.parts with
    | error err => rfl
    | ok parts => exact congrArg Except.ok (d.sheetWith_glyphs i parts strict markup)
  · intro t ht
    obtain ⟨parts, -, rfl⟩ := d.eq_sheetWith _ i ht
    exact ⟨d.countP_shared i parts _ (Or.inl rfl), d.countP_shared i parts _ (Or.inr rfl)⟩
  · simp only [draw_eq]
    cases d.parts with
    | error err => exact Or.inl ⟨err, rfl, rfl⟩
    | ok parts =>
        exact Or.inr ⟨_, _, rfl, rfl, renumbered_sheetWith d parts strict glyphs glyphs'⟩

-- A labelled lane on the first and on the eleventh page.
theorem draw_options_eleventh_page :
    let lane : Lane := { wave := "0|1", phase := 0.5, label := some [.text "go" 0.0] }
    let d : Diagram := { signal := { entries := [.lane lane] } }
    ∃ t u lanes, d.draw {} 0 = .ok t ∧ d.draw {} 10 = .ok u ∧
      t.part? ["waves_0", "lanes_0"] = some lanes ∧
      lanes.children.countP (fun n => n.id? == some "labels_0") = 1 ∧
      t.children.countP (fun n => n.tag? == some "defs") = 1 ∧
      u.children.countP (fun n => n.tag? == some "defs") = 0 ∧
      Renumbered 0 10 [(t.removeChildren Node.isShared).toNode]
        [(u.removeChildren Node.isShared).toNode] := by
  intro lane d
  obtain ⟨parts, hparts⟩ : ∃ parts, d.parts = .ok parts := ⟨_, rfl⟩
  have ht := d.draw_of_parts {} 0 hparts
  have hu := d.draw_of_parts {} 10 hparts
  obtain ⟨⟨-, hlabels⟩, ⟨-, hshared⟩, hpages⟩ := draw_options d false none none "<g/>" 0 10
  obtain ⟨-, ⟨-, hshared'⟩, -⟩ := draw_options d false none none "<g/>" 10 0
  obtain ⟨lanes, hlanes, hcount⟩ := hlabels _ ht
  rcases hpages with ⟨err, herr, -⟩ | ⟨t, u, ht', hu', hrenumbered⟩
  · cases ht.symm.trans herr
  · cases ht.symm.trans ht'
    cases hu.symm.trans hu'
    exact ⟨_, _, lanes, ht, hu, hlanes, hcount, (hshared _ ht).2, (hshared' _ hu).2, hrenumbered⟩

end Diagram

end TimingDiagram
