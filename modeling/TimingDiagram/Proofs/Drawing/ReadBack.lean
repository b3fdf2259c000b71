import TimingDiagram.Proofs.Drawing.Ids
import TimingDiagram.Proofs.Markup.ReadBack

namespace TimingDiagram

open Svg

namespace Drawing

theorem areReadable_append {front back : List Node} (hfront : AreReadable front)
    (hback : AreReadable back) : AreReadable (front ++ back) := by
  rw [areReadable_iff] at *
  exact List.forall_mem_append.mpr ⟨hfront, hback⟩

theorem areReadable_map {α : Type} {draw : α → Node} (h : ∀ a, IsReadable (draw a))
    (items : List α) : AreReadable (items.map draw) := by
  rw [areReadable_iff, List.forall_mem_map]
  exact fun a _ => h a

theorem areReadable_flatMap {α : Type} {draw : α → List Node} (h : ∀ a, AreReadable (draw a))
    (items : List α) : AreReadable (items.flatMap draw) := by
  rw [areReadable_iff, List.forall_mem_flatMap]
  exact fun a _ => (areReadable_iff _).mp (h a)

theorem areReadable_singleton {n : Node} (h : IsReadable n) : AreReadable [n] := ⟨h, trivial⟩

theorem isReadable_group {children : List Node} (h : AreReadable children) (id : String) :
    IsReadable (group id children).toNode :=
  ⟨(by decide : IsName "g"), by simp +decide [group], h⟩

theorem isReadable_movedGroup {children : List Node} (h : AreReadable children)
    (id move : String) : IsReadable (movedGroup id move children).toNode :=
  ⟨(by decide : IsName "g"), by simp +decide [movedGroup], h⟩

section Rows

variable (f : Frame) (index : ℕ) (row : Row)

theorem isReadable_labelRow (t : Timing Float) : IsReadable (labelRow f index t row) := by
  refine isReadable_movedGroup (areReadable_flatMap ?_ _) _ _
  rintro ⟨token, i⟩
  cases token with
  | skip => exact trivial
  | text s offset => simp +decide [inlineLabel, IsReadable, AreReadable]

theorem isReadable_gapRow (t : Timing Float) : IsReadable (gapRow f index t row) := by
  refine isReadable_movedGroup ?_ _ _
  cases row.lane with
  | none => exact trivial
  | some lane =>
      refine areReadable_map (fun x => ?_) _
      simp +decide [IsReadable, AreReadable]

theorem isReadable_waveRow (bricks : List Brick) : IsReadable (waveRow f index row bricks) := by
  have htitle : AreReadable (titleText f.cell row.title) := by
    unfold titleText
    split
    · exact trivial
    · simp +decide [preserved, plainSpan, IsReadable, AreReadable]
  have hglyphs : AreReadable (glyphs f.cell bricks) := by
    refine areReadable_map (fun _ => ?_) _
    simp +decide [IsReadable, AreReadable]
  have hlabels : AreReadable (dataLabels f.cell bricks row.data) := by
    refine areReadable_map (fun _ => ?_) _
    simp +decide [preserved, plainSpan, IsReadable, AreReadable]
  exact isReadable_movedGroup (areReadable_append htitle (areReadable_singleton
    (isReadable_movedGroup (areReadable_append hglyphs hlabels) _ _))) _ _

end Rows

theorem isReadable_brackets (headHeight index : ℕ) (boxes : List GroupBox) :
    IsReadable (brackets headHeight index boxes) := by
  refine isReadable_group (areReadable_flatMap ?_ _) _
  rintro ⟨box, i⟩
  cases hname : box.name with
  | none => simp +decide [hname, IsReadable, AreReadable]
  | some name =>
      simp +decide [hname, groupTitle, preserved, plainSpan, IsReadable, AreReadable]

theorem isReadable_boxedLabel {centre : Point Float} {s : String} {label : Node}
    (h : boxedLabel centre s = .ok label) : IsReadable label := by
  obtain ⟨textWidth, -, rfl⟩ := map_eq_ok.mp h
  simp +decide [IsReadable, AreReadable]

theorem areReadable_boxed {α : Type} {centre : α → Point Float} {text : α → String}
    {items : List α} {labels : List Node}
    (h : List.Forall₂ (fun a label => boxedLabel (centre a) (text a) = .ok label) items labels) :
    AreReadable labels := by
  rw [areReadable_iff]
  intro n hn
  obtain ⟨p, s, hlabel⟩ := exists_of_mem_boxed h n hn
  exact isReadable_boxedLabel hlabel

theorem areReadable_markLabels {f : Frame} {d : Diagram} {length rows : ℕ} {nodes : List Node}
    (h : markLabels f d length rows = .ok nodes) : AreReadable nodes := by
  rw [areReadable_iff]
  intro n hn
  obtain ⟨x, y, i, s, rfl⟩ := exists_of_mem_markLabels f h n hn
  simp +decide [tickLabelAt, IsReadable, AreReadable]

theorem areReadable_connectors {found : List (Char × Point Float)} {edges : List Edge}
    {nodes : List Node} (h : connectors found edges = .ok nodes) : AreReadable nodes := by
  obtain ⟨drawn, names, hdrawn, hnames, rfl⟩ := drawn_of_connectors h
  have hedge : ∀ {e nodes}, EdgeDrawn found e nodes → AreReadable nodes := by
    rintro e _ ⟨source, target, labels, -, -, hlabels, rfl⟩
    refine ⟨?_, areReadable_boxed hlabels⟩
    simp +decide [IsReadable, AreReadable]
  have hedges : AreReadable drawn.flatten := by
    clear h
    induction hdrawn with
    | nil => exact trivial
    | cons hfirst _ ih => exact areReadable_append (hedge hfirst) ih
  exact areReadable_append hedges (areReadable_boxed hnames)

-- Glyph definitions that consist of whole elements.
def HasReadableGlyphs (options : DrawingOptions) : Prop :=
  ∀ markup, options.glyphs = some markup → IsReadable (.raw markup)

theorem areReadable_shared {options : DrawingOptions} (h : HasReadableGlyphs options) (skin : Skin)
    (index : ℕ) : AreReadable (shared options skin index) := by
  have hmarkers : AreReadable (skin.markers.map Element.toNode) := by
    simp +decide [Skin.markers, Skin.marker, Element.toNode, IsReadable, AreReadable]
  unfold shared
  split
  · refine ⟨by simp +decide [IsReadable, AreReadable], ⟨by decide, by simp, ?_⟩, trivial⟩
    refine areReadable_append hmarkers ?_
    cases hglyphs : options.glyphs with
    | none => exact trivial
    | some markup => exact areReadable_singleton (h markup hglyphs)
  · exact trivial

end Drawing

namespace Diagram

open Drawing

variable {options : DrawingOptions} {d : Diagram} {index : ℕ}

theorem isReadable_marks (hcaptions : d.HasPlainCaptions) {labels : List Node}
    (hlabels : AreReadable labels) :
    IsReadable (marks d.frame d d.longest d.rows.length index labels) := by
  have hlines : AreReadable (markLines d.frame d.longest d.rows.length index) := by
    refine areReadable_map (fun _ => ?_) _
    simp +decide [IsReadable, AreReadable]
  have hcaption : ∀ axis, axis = d.head ∨ axis = d.foot → ∀ text, axis.bind (·.text) = some text →
      ∀ x y, IsReadable (captionText text x y) := by
    intro axis haxis text htext x y
    obtain ⟨a, rfl, ha⟩ := Option.bind_eq_some_iff.mp htext
    cases text with
    | plain s => simp +decide [captionText, preserved, plainSpan, IsReadable, AreReadable]
    | rich markup => exact absurd ha (hcaptions a (haxis.imp Eq.symm Eq.symm) markup)
  refine isReadable_group (areReadable_append (areReadable_append (areReadable_append hlines ?_)
    ?_) hlabels) _
  · beta_reduce
    split
    · rename_i text htext
      exact areReadable_singleton (hcaption d.head (.inl rfl) text htext _ _)
    · exact trivial
  · beta_reduce
    split
    · rename_i text htext
      exact areReadable_singleton (hcaption d.foot (.inr rfl) text htext _ _)
    · exact trivial

theorem isReadable_lanesWith (hcaptions : d.HasPlainCaptions) {parts : Parts}
    (hparts : d.parts = .ok parts) : IsReadable (d.lanesWith options index parts).toNode := by
  obtain ⟨column, -, hparts⟩ := bind_eq_ok.mp hparts
  obtain ⟨labels, hlabels, hparts⟩ := bind_eq_ok.mp hparts
  obtain ⟨connectors, hconnectors, hparts⟩ := bind_eq_ok.mp hparts
  cases hparts
  have hlayer : AreReadable (if options.strict then [] else [(d.labelLayer index).toNode]) := by
    split
    · exact trivial
    · exact areReadable_singleton (isReadable_group
        (areReadable_map (fun row => isReadable_labelRow d.frame index row row.timing) _) _)
  have hmarks : AreReadable [marks d.frame d d.longest d.rows.length index labels] :=
    areReadable_singleton
      (isReadable_marks hcaptions (areReadable_markLabels (mapError_eq_ok.mp hlabels)))
  have hwaves : AreReadable (d.waves index) :=
    areReadable_map (fun row => isReadable_waveRow d.frame index row _) _
  have hgaps : IsReadable (d.gapLayer index).toNode := isReadable_group
    (areReadable_map (fun row => isReadable_gapRow d.frame index row row.timing) _) _
  have hbehind : AreReadable
      [(group s!"wavearcs_{index}" connectors).toNode, (d.gapLayer index).toNode] :=
    ⟨isReadable_group (areReadable_connectors hconnectors) _, hgaps, trivial⟩
  exact isReadable_movedGroup (areReadable_append (areReadable_append (areReadable_append hlayer
    hmarks) hwaves) hbehind) _ _

theorem isReadable_draw (hcaptions : d.HasPlainCaptions) (hglyphs : HasReadableGlyphs options)
    {t : Element} (h : d.draw options index = .ok t) : IsReadable t.toNode := by
  obtain ⟨parts, hparts, rfl⟩ := d.eq_sheetWith options index h
  refine ⟨(by decide : IsName "svg"), by simp +decide [sheetWith], ?_⟩
  have hcontent : AreReadable [(d.lanesWith options index parts).toNode,
      brackets d.frame.headHeight index d.signal.outline.boxes] :=
    ⟨isReadable_lanesWith hcaptions hparts, isReadable_brackets _ _ _, trivial⟩
  exact areReadable_append (areReadable_shared hglyphs _ _)
    (areReadable_singleton (isReadable_group hcontent _))

-- What is written of a drawing reads back as the drawing on its background: its attributes by name
-- and with the namespace among them, and everything in it in its order.
theorem scan_draw (hcaptions : d.HasPlainCaptions) (hglyphs : HasReadableGlyphs options)
    {t : Element} (h : d.draw options index = .ok t) (background : Option String) :
    ∃ attrs : List (String × String),
      attrs.Perm (("xmlns", "http://www.w3.org/2000/svg") :: t.attrs) ∧
      attrs.Pairwise (fun a b => a.1 ≤ b.1) ∧
      scan (document background t).toList =
        some (.start "svg" attrs :: (eventsIn (background.toList.map backdrop ++ t.children)
          ++ [.char '\n', .finish "svg"])) := by
  have hreadable := isReadable_draw hcaptions hglyphs h
  obtain ⟨parts, -, rfl⟩ := d.eq_sheetWith options index h
  have hattrs : ("xmlns" :: (d.sheetWith options index parts).attrs.map Prod.fst).Nodup := by
    simp [sheetWith]
  have hends : endsInline
      (background.toList.map backdrop ++ (d.sheetWith options index parts).children) = false := by
    rw [endsInline, sheetWith, ← List.append_assoc, List.getLast?_concat]
    rfl
  refine ⟨_, byName_perm _, pairwise_byName _, ?_⟩
  rw [scan_document background hattrs hreadable, eventsOf, hends]
  simp [sheetWith]

end Diagram

end TimingDiagram
