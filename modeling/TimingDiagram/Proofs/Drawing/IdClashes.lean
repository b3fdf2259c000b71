import TimingDiagram.Proofs.Drawing.Ids
import TimingDiagram.Proofs.Drawing.NamedEvents

namespace TimingDiagram

namespace Diagram

theorem isPlain_of_mem_pageNames {options : DrawingOptions} {d : Diagram} {index : ℕ}
    {name : NumberedName} (h : name ∈ d.pageNames options index) :
    NumberedName.IsPlain name.word := by
  refine d.forall_mem_pageNames options index (P := fun name => NumberedName.IsPlain name.word)
    ?_ ?_ ?_ name h
  · intro _
    exact ⟨by decide, by decide⟩
  · change ∀ word ∈ _, NumberedName.IsPlain word
    decide
  · have hwords : ∀ word ∈ ["labels", "gmark", "wavelane", "wavelane_draw", "wavegap", "group"],
        NumberedName.IsPlain word := by decide
    intro word hword _
    exact hwords word hword

-- A name ends in the number of its page, unless it is the one of a marker on the first page.
theorem page_of_mem_pageNames {options : DrawingOptions} {d : Diagram} {index : ℕ}
    {name : NumberedName} (h : name ∈ d.pageNames options index) :
    name.numbers.getLast?.getD 0 = index :=
  d.forall_mem_pageNames options index (P := fun name => name.numbers.getLast?.getD 0 = index)
    (fun hindex => ⟨hindex.symm, hindex.symm⟩) (fun _ _ => rfl) (fun _ _ _ => rfl) name h

theorem nodup_map_text_pageNames (options : DrawingOptions) (d : Diagram) (index : ℕ) :
    ((d.pageNames options index).map NumberedName.text).Nodup :=
  (d.nodup_pageNames options index).map_on fun _ hname _ hother =>
    NumberedName.text_injective (isPlain_of_mem_pageNames hname) (isPlain_of_mem_pageNames hother)

theorem disjoint_map_text_pageNames (options others : DrawingOptions) (d other : Diagram)
    {index number : ℕ} (hindex : index ≠ number) :
    ((d.pageNames options index).map NumberedName.text).Disjoint
      ((other.pageNames others number).map NumberedName.text) := by
  intro id hid hother
  obtain ⟨name, hname, rfl⟩ := List.mem_map.mp hid
  obtain ⟨name', hname', htext⟩ := List.mem_map.mp hother
  have heq : name' = name := NumberedName.text_injective (isPlain_of_mem_pageNames hname')
    (isPlain_of_mem_pageNames hname) htext
  have hnumber := page_of_mem_pageNames hname'
  rw [heq, page_of_mem_pageNames hname] at hnumber
  exact hindex hnumber

section Drawn

variable {options : DrawingOptions} {d : Diagram} {index : ℕ} {t : Element}

theorem sublist_of_draw (hd : d.HasPlainCaptions) (h : d.draw options index = .ok t) :
    (idsBut (d.IsConnector index) none [t.toNode]).Sublist
      ((d.pageNames options index).map NumberedName.text) := by
  obtain ⟨parts, hparts, rfl⟩ := d.eq_sheetWith options index h
  exact d.sublist_pageNames options index hd hparts

-- Two elements of one drawing, or of drawings with different numbers, share an id only if one of
-- them is a connector.
theorem ids_clash_only_at_connectors (hd : d.HasPlainCaptions)
    (h : d.draw options index = .ok t) :
    t.placed.map Placed.element = t.descendants ∧
      t.placed.Pairwise (fun p q => ∀ id, p.id? = some id → q.id? = some id →
        d.IsConnector index p ∨ d.IsConnector index q) ∧
      ∀ (others : DrawingOptions) (other : Diagram) (number : ℕ) (s : Element),
        other.HasPlainCaptions → number ≠ index → other.draw others number = .ok s →
        ∀ p ∈ t.placed, ∀ q ∈ s.placed, ∀ id, p.id? = some id → q.id? = some id →
          d.IsConnector index p ∨ other.IsConnector number q := by
  have hsub := sublist_of_draw hd h
  refine ⟨t.map_element_placed, ?_, ?_⟩
  · exact pairwise_of_nodup_idsBut (hsub.nodup (d.nodup_map_text_pageNames options index))
  · intro others other number s hother hnumber hs p hp q hq id hpid hqid
    by_contra hexempt
    obtain ⟨hp', hq'⟩ := not_or.mp hexempt
    have hsub' := sublist_of_draw hother hs
    exact disjoint_map_text_pageNames options others d other hnumber.symm
      (hsub.subset (mem_idsBut hp hpid hp')) (hsub'.subset (mem_idsBut hq hqid hq'))

end Drawn

-- The edge between the two events has the id of the first mark of the second page.
theorem ids_clash_at_numbered_events :
    let d : Diagram :=
      { signal := { entries := [.lane { wave := "01", node := some "01" }] }
        edges := [{ source := '0', target := '1', connector := {} }] }
    d.HasPlainCaptions ∧ ∃ t s, d.draw {} 1 = .ok t ∧ d.draw {} 0 = .ok s ∧
      t.placed.Pairwise (fun p q => ∀ id, p.id? = some id → q.id? = some id →
        d.IsConnector 1 p ∨ d.IsConnector 1 q) ∧
      ∀ p ∈ t.placed, ∀ q ∈ s.placed, ∀ id, p.id? = some id → q.id? = some id →
        d.IsConnector 1 p ∨ d.IsConnector 0 q := by
  intro d
  have hd : d.HasPlainCaptions := by
    intro axis haxis
    simp [d] at haxis
  have hnames : ∀ c ∈ ['0', '1'], d.signal.NamesEvent c := by
    intro c hc
    simp only [List.mem_cons, List.not_mem_nil, or_false] at hc
    rcases hc with rfl | rfl <;>
      exact ⟨by decide, by decide, by decide, [0], _, "01", rfl, rfl, by decide⟩
  have hdraw : ∀ index, ∃ t, d.draw {} index = .ok t := fun index =>
    (exists_draw_iff_of_fits {} index (by decide +kernel)).mpr <|
      List.forall_mem_singleton.mpr ⟨hnames '0' (by decide), hnames '1' (by decide)⟩
  obtain ⟨t, ht⟩ := hdraw 1
  obtain ⟨s, hs⟩ := hdraw 0
  have hclash := ids_clash_only_at_connectors hd ht
  exact ⟨hd, t, s, ht, hs, hclash.2.1, hclash.2.2 {} d 0 s hd (by decide) hs⟩

end Diagram

end TimingDiagram
