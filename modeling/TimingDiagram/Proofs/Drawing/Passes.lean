import Mathlib
import TimingDiagram.Drawing.Page
import TimingDiagram.Proofs.Basic

namespace TimingDiagram.Drawing

section Rows

variable {m : Type → Type} [Monad m] [LawfulMonad m] {β : Type}

-- The timing that is entered once all of some rows were gone through.
def entered (rows : List Row) (t : Timing Float) : Timing Float :=
  rows.foldl (fun _ row => row.timing) t

theorem run_drawRow (part : Timing Float → Row → β) (row : Row) (t : Timing Float) :
    (drawRow (m := m) part row).run t = pure (part row.timing row, row.timing) := by
  simp only [drawRow, enter, StateT.run_bind, StateT.run_set, StateT.run_get, StateT.run_pure,
    pure_bind]

-- A row is drawn with its own timing, whatever timing the rows above it and the parts drawn before
-- have left.
theorem run_drawRows (part : Timing Float → Row → β) (rows : List Row) (t : Timing Float) :
    (drawRows (m := m) part rows).run t =
      pure (rows.map fun row => part row.timing row, entered rows t) := by
  induction rows generalizing t with
  | nil => rfl
  | cons row rest ih =>
      rw [drawRows] at ih
      rw [drawRows, List.mapM_cons]
      simp only [StateT.run_bind, run_drawRow, ih, StateT.run_pure, pure_bind]
      rfl

-- The events of some rows, each with the timing of its own row.
def allEvents (f : Frame) (rows : List Row) : List (Char × Point Float) :=
  placeAll [] (rows.flatMap fun row => rowEvents f row.timing row)

theorem run_events (f : Frame) (rows : List Row) (t : Timing Float) :
    (events (m := m) f rows).run t = pure (allEvents f rows, entered rows t) := by
  have hevents : (rows.map fun row => rowEvents f row.timing row).foldl placeAll [] =
      allEvents f rows := by
    rw [allEvents, List.flatMap_def, placeAll, List.foldl_flatten]
    rfl
  simp only [events, StateT.run_bind, run_drawRows, StateT.run_pure, pure_bind, hevents]

end Rows

theorem run_arcs (f : Frame) (rows : List Row) (edges : List Edge) (index : ℕ) (t : Timing Float) :
    (arcs f rows edges index).run t =
      (connectors (allEvents f rows) edges).map fun drawn =>
        ((group s!"wavearcs_{index}" drawn).toNode, entered rows t) := by
  simp only [arcs, StateT.run_bind, run_events, pure_bind, StateT.run_lift, StateT.run_pure,
    bind_assoc]
  cases connectors (allEvents f rows) edges <;> rfl

section Edges

variable {found : List (Char × Point Float)} {e : Edge} {edges : List Edge} {nodes : List Node}

-- What is drawn of an edge: its path from event to event, and its label if it has one.
def EdgeDrawn (found : List (Char × Point Float)) (e : Edge) (nodes : List Node) : Prop :=
  ∃ source target labels, found.lookup e.source = some source ∧
    found.lookup e.target = some target ∧
    List.Forall₂
      (fun s label => boxedLabel (labelAnchor e.connector.course source target) s = .ok label)
      (e.label.toList.filter (· ≠ "")) labels ∧
    nodes = .element "path" [("id", "gmark_" ++ e.source.toString ++ "_" ++ e.target.toString),
      ("d", coursePath e.connector.course source target),
      ("style", headsStyle e.connector.heads)] [] :: labels

-- The names of the events that are written out, one after the other.
def NamesDrawn (found : List (Char × Point Float)) (names : List Node) : Prop :=
  List.Forall₂ (fun e label => boxedLabel e.2 e.1.toString = .ok label) (found.filter isShown) names

theorem lookup_of_find {name : Char} {p : Point Float} (h : find found name = .ok p) :
    found.lookup name = some p := by
  rw [find] at h
  split at h
  · rename_i hfound
    rw [hfound, Except.ok.inj h]
  · cases h

theorem edgeDrawn_of_edgeNodes (h : edgeNodes found e = .ok nodes) : EdgeDrawn found e nodes := by
  obtain ⟨source, hsource, h⟩ := bind_eq_ok.mp h
  obtain ⟨target, htarget, h⟩ := bind_eq_ok.mp h
  have hdrawn : ∀ labels, nodes = _ :: labels →
      List.Forall₂
        (fun s label => boxedLabel (labelAnchor e.connector.course source target) s = .ok label)
        (e.label.toList.filter (· ≠ "")) labels → EdgeDrawn found e nodes := fun labels hnodes h =>
    ⟨source, target, labels, lookup_of_find hsource, lookup_of_find htarget, h, hnodes⟩
  cases hlabel : e.label with
  | none =>
      rw [hlabel] at h
      cases h
      exact hdrawn [] rfl (by simp [hlabel])
  | some s =>
      rw [hlabel] at h
      by_cases hempty : s = ""
      · subst hempty
        cases h
        exact hdrawn [] rfl (by simp [hlabel])
      · simp only [String.isEmpty_iff, hempty] at h
        obtain ⟨label, hbox, h⟩ := bind_eq_ok.mp h
        cases h
        exact hdrawn [label] rfl (by simpa [hlabel, hempty] using mapError_eq_ok.mp hbox)

theorem exists_of_mem_boxed {α : Type} {centre : α → Point Float} {text : α → String}
    {items : List α} {labels : List Node}
    (h : List.Forall₂ (fun a label => boxedLabel (centre a) (text a) = .ok label) items labels) :
    ∀ n ∈ labels, ∃ p s, boxedLabel p s = .ok n := by
  induction h with
  | nil => exact List.forall_mem_nil _
  | cons hlabel _ ih => exact List.forall_mem_cons.mpr ⟨⟨_, _, hlabel⟩, ih⟩

-- The connectors are drawn edge by edge, and the names of events after them.
theorem drawn_of_connectors (h : connectors found edges = .ok nodes) :
    ∃ drawn names, List.Forall₂ (EdgeDrawn found) edges drawn ∧ NamesDrawn found names ∧
      nodes = drawn.flatten ++ names := by
  obtain ⟨drawn, hdrawn, h⟩ := bind_eq_ok.mp h
  obtain ⟨names, hnames, h⟩ := bind_eq_ok.mp h
  cases h
  exact ⟨drawn, names, (mapM_eq_ok.mp hdrawn).imp fun _ _ => edgeDrawn_of_edgeNodes,
    mapM_eq_ok.mp (mapError_eq_ok.mp hnames), rfl⟩

end Edges

end TimingDiagram.Drawing
