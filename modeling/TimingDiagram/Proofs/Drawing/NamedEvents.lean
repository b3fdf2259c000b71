import TimingDiagram.Proofs.Drawing.Assembly
import TimingDiagram.Proofs.Drawing.TickLabels
import TimingDiagram.Proofs.Signal.Listing

namespace TimingDiagram

-- Whether a lane anywhere in a signal tree names an event.
def Group.NamesEvent (root : Group) (c : Char) : Prop :=
  c ≠ '.' ∧ c ≠ '<' ∧ c ≠ '>' ∧
    ∃ path l node, root.toEntry.at? path = some (.lane l) ∧ l.node = some node ∧ c ∈ node.toList

-- The events that an edge looks up, one after the other.
def Edge.ends (e : Edge) : List Char := [e.source, e.target]

theorem Group.exists_row_iff (root : Group) (l : Lane) :
    (∃ row ∈ root.outline.rows, row.lane = some l) ↔
      ∃ path, root.toEntry.at? path = some (.lane l) := by
  have hrows := rows_ofEntries 0 0 root.name root.entries
  rw [Nat.zero_add] at hrows
  have hmem := mem_addressesIn Entry.isRow root.entries root.name
  constructor
  · rintro ⟨row, hrow, hlane⟩
    rw [outline, hrows] at hrow
    obtain ⟨⟨path, number⟩, -, rfl⟩ := List.mem_map.mp hrow
    obtain ⟨e, he, hl⟩ := Option.bind_eq_some_iff.mp hlane
    refine ⟨path, he.trans ?_⟩
    cases e <;> cases hl
    rfl
  · rintro ⟨path, hpath⟩
    have hne : path ≠ [] := by
      rintro rfl
      cases hpath
    have haddress : path ∈ addressesIn Entry.isRow root.entries := by
      rw [hmem]
      refine ⟨hne, ?_⟩
      change (root.toEntry.at? path).any Entry.isRow = true
      rw [hpath]
      rfl
    obtain ⟨number, hnumber⟩ := List.mem_iff_getElem?.mp haddress
    refine ⟨root.toEntry.rowAt 0 (path, number), ?_, ?_⟩
    · rw [outline, hrows]
      exact List.mem_map_of_mem (List.mk_mem_zipIdx_iff_getElem?.mpr hnumber)
    · rw [Entry.rowAt, hpath]
      rfl

namespace Drawing

def isEventName (c : Char) : Bool := c != '<' && c != '>' && c != '.'

theorem map_fst_eventsFrom {α : Type} [Scalar α] (f : Frame) (t : Timing α) (y step position : α)
    (cs : List Char) :
    (eventsFrom f t y step position cs).map Prod.fst = cs.filter isEventName := by
  induction cs generalizing step position with
  | nil => rfl
  | cons c rest ih =>
      rw [eventsFrom, List.filter_cons]
      by_cases hopen : c = '<'
      · simp [hopen, isEventName, ih]
      · by_cases hclose : c = '>'
        · simp [hclose, isEventName, ih]
        · by_cases hdot : c = '.'
          · simp [hdot, isEventName, ih]
          · simp [hopen, hclose, hdot, isEventName, ih]

theorem lookup_place (name c : Char) (p : Point Float) (found : List (Char × Point Float)) :
    (place name p found).lookup c = if c = name then some p else found.lookup c := by
  induction found with
  | nil =>
      by_cases hc : c = name
      · simp [place, hc]
      · simp [place, List.lookup_cons, beq_eq_false_iff_ne.mpr hc, hc]
  | cons e rest ih =>
      obtain ⟨n, q⟩ := e
      rw [place]
      by_cases hn : n = name
      · by_cases hc : c = name
        · simp [hn, hc]
        · simp [hn, hc, List.lookup_cons, beq_eq_false_iff_ne.mpr hc]
      · rw [if_neg hn, List.lookup_cons, List.lookup_cons, ih]
        by_cases hc : c = n
        · simp [hc, hn]
        · simp [beq_eq_false_iff_ne.mpr hc]

theorem isSome_lookup_placeAll (found added : List (Char × Point Float)) (c : Char) :
    ((placeAll found added).lookup c).isSome ↔
      (found.lookup c).isSome ∨ c ∈ added.map Prod.fst := by
  induction added generalizing found with
  | nil => simp [placeAll]
  | cons e rest ih =>
      have hstep : placeAll found (e :: rest) = placeAll (place e.1 e.2 found) rest := rfl
      rw [hstep, ih, lookup_place, List.map_cons, List.mem_cons]
      by_cases hc : c = e.1 <;> simp [hc]

theorem mem_rowEvents_names (f : Frame) (t : Timing Float) (row : Row) (c : Char) :
    c ∈ (rowEvents f t row).map Prod.fst ↔
      ∃ l node, row.lane = some l ∧ l.node = some node ∧ c ∈ node.toList.filter isEventName := by
  unfold rowEvents
  cases hlane : row.lane with
  | none => simp
  | some l =>
      cases hnode : l.node with
      | none => simp [hnode]
      | some node => simp [hnode, nodeEvents, map_fst_eventsFrom]

end Drawing

-- Whether the width of a text can be computed: the advance widths of its characters add up to a
-- count.
def Text.Fits (s : String) : Prop := (s.toList.map Text.advance).sum < countLimit

instance (s : String) : Decidable (Text.Fits s) :=
  inferInstanceAs (Decidable ((s.toList.map Text.advance).sum < countLimit))

namespace Drawing

-- What a drawing needs on its way: the width of a text, the labels of some marks, or an event.
inductive Need where
  | width (s : String)
  | labels (t : Ticks) (count : ℕ)
  | event (name : Char)

namespace Need

def failure : Need → DrawingError
  | .width _ | .labels _ _ => .overflow .sum
  | .event name => .undefinedEvent name

def isEvent : Need → Bool
  | .event _ => true
  | .width _ | .labels _ _ => false

-- Whether a need is met once some events are found.
def isMet (found : List (Char × Point Float)) : Need → Bool
  | .width s => decide (Text.Fits s)
  | .labels t count => decide (t.Fits count)
  | .event name => (found.lookup name).isSome

def ofTicks (t : Option Ticks) (count : ℕ) : List Need := t.toList.map fun t => .labels t count

-- The labels on the marks of an axis and those between them.
def ofAxis (cycles : ℕ) (a : Option Axis) : List Need :=
  a.toList.flatMap fun a => ofTicks a.tick (cycles + 1) ++ ofTicks a.tock cycles

-- An edge looks up its two ends and then measures its label.
def ofEdge (e : Edge) : List Need :=
  [.event e.source, .event e.target] ++ (e.label.toList.filter (· ≠ "")).map .width

end Need

section Needs

open FailsAtFirst

variable (found : List (Char × Point Float))

theorem failsAtFirst_ofOverflow {α : Type} {needs : List Need} {x : Except Overflow α}
    (hneeds : ∀ n ∈ needs, n.failure = .overflow .sum)
    (hx : FailsAtFirst (Need.isMet found) (fun _ => .sum) needs x) :
    FailsAtFirst (Need.isMet found) Need.failure needs (DrawingError.ofOverflow x) :=
  (hx.mapError DrawingError.overflow).congr fun n hn => (hneeds n hn).symm

theorem failsAtFirst_advanceSum (s : String) :
    FailsAtFirst (Need.isMet found) (fun _ => Overflow.sum) [.width s] (Text.advanceSum s) := by
  rw [Text.advanceSum, sumCounts_eq]
  refine single (fun hmet => ?_) fun hunmet => ?_
  · exact ⟨_, if_pos (of_decide_eq_true hmet)⟩
  · exact if_neg (of_decide_eq_false hunmet)

theorem failsAtFirst_boxedLabel (centre : Point Float) (s : String) :
    FailsAtFirst (Need.isMet found) (fun _ => Overflow.sum) [.width s] (boxedLabel centre s) :=
  ((failsAtFirst_advanceSum found s).map _).map _

theorem failsAtFirst_titleColumn (cell : Cell) (rows : List Row) :
    FailsAtFirst (Need.isMet found) Need.failure (rows.map fun row => .width row.title)
      (DrawingError.ofOverflow (titleColumn cell rows)) := by
  have hneeds : rows.map (fun row => Need.width row.title) =
      rows.flatMap fun row => [.width row.title] := List.map_eq_flatMap
  rw [hneeds]
  refine failsAtFirst_ofOverflow found ?_ ((mapM fun row _ => ?_).map _)
  · intro n hn
    obtain ⟨row, -, hn⟩ := List.mem_flatMap.mp hn
    rw [List.mem_singleton.mp hn]
    rfl
  · exact (failsAtFirst_advanceSum found row.title).map _

theorem failsAtFirst_labelsOf (f : Frame) (t : Option Ticks) (x : ℕ) (y : ℤ) (count : ℕ) :
    FailsAtFirst (Need.isMet found) (fun _ => Overflow.sum) (Need.ofTicks t count)
      (labelsOf f t x y count) := by
  cases t with
  | none => exact pure _ _ []
  | some t =>
      refine single (fun hmet => ?_) fun hunmet => ?_
      · obtain ⟨nodes, hnodes, -⟩ := tickLabels_of_fits f x y (of_decide_eq_true hmet)
        exact ⟨nodes, hnodes⟩
      · exact tickLabels_of_not_fits f x y (of_decide_eq_false hunmet)

theorem failsAtFirst_axisLabels (f : Frame) (length : ℕ) (a : Option Axis) (y : ℤ) :
    FailsAtFirst (Need.isMet found) (fun _ => Overflow.sum) (Need.ofAxis (wholeCycles f length) a)
      (axisLabels f length a y) := by
  cases a with
  | none => exact pure _ _ []
  | some a =>
      have hneeds : Need.ofAxis (wholeCycles f length) (some a) =
          Need.ofTicks a.tick (wholeCycles f length + 1) ++
            (Need.ofTicks a.tock (wholeCycles f length) ++ []) := by
        simp [Need.ofAxis]
      rw [hneeds]
      exact (failsAtFirst_labelsOf found f a.tick _ y _).bind fun _ _ =>
        (failsAtFirst_labelsOf found f a.tock _ y _).bind fun _ _ => pure _ _ _

theorem failure_of_mem_ofAxis {n : Need} {cycles : ℕ} {a : Option Axis}
    (hn : n ∈ Need.ofAxis cycles a) : n.failure = .overflow .sum := by
  simp only [Need.ofAxis, Need.ofTicks, List.mem_append, List.mem_flatMap, List.mem_map] at hn
  obtain ⟨_, -, ⟨_, -, rfl⟩ | ⟨_, -, rfl⟩⟩ := hn <;> rfl

theorem failsAtFirst_markLabels (f : Frame) (d : Diagram) (length rows : ℕ) :
    FailsAtFirst (Need.isMet found) Need.failure
      (Need.ofAxis (wholeCycles f length) d.head ++ Need.ofAxis (wholeCycles f length) d.foot)
      (DrawingError.ofOverflow (markLabels f d length rows)) := by
  refine failsAtFirst_ofOverflow found ?_ ?_
  · intro n hn
    exact (List.mem_append.mp hn).elim failure_of_mem_ofAxis failure_of_mem_ofAxis
  · rw [← List.append_nil (Need.ofAxis _ d.foot)]
    exact (failsAtFirst_axisLabels found f length d.head _).bind fun _ _ =>
      (failsAtFirst_axisLabels found f length d.foot _).bind fun _ _ => pure _ _ _

-- A single character is never too wide.
theorem fits_toString (c : Char) : Text.Fits c.toString := by
  have htable : ∀ n ∈ Text.advances.toList, n < countLimit := by decide +kernel
  have hlt : Text.advance c < countLimit := by
    unfold Text.advance
    cases hc : Text.advances[c.toNat]? with
    | none => exact (by decide : Text.otherAdvance < countLimit)
    | some n =>
        rw [← Array.getElem?_toList] at hc
        exact htable n (List.mem_of_getElem? hc)
  simpa [Text.Fits, Char.toString] using hlt

theorem failsAtFirst_eventNodes :
    FailsAtFirst (Need.isMet found) (fun _ => Overflow.sum) [] (eventNodes found) := by
  have hnames : FailsAtFirst (Need.isMet found) (fun _ => Overflow.sum)
      ((found.filter isShown).flatMap fun _ => []) (eventNodes found) := by
    refine mapM fun e _ => ?_
    exact (failsAtFirst_boxedLabel found e.2 e.1.toString).ok_iff.mpr
      fun n hn => List.mem_singleton.mp hn ▸ decide_eq_true (fits_toString e.1)
  rwa [List.flatMap_eq_nil_iff.mpr fun _ _ => rfl] at hnames

theorem failsAtFirst_find (c : Char) :
    FailsAtFirst (Need.isMet found) Need.failure [.event c] (find found c) := by
  refine single (fun hmet => ?_) fun hunmet => ?_
  · obtain ⟨p, hp⟩ := Option.isSome_iff_exists.mp hmet
    exact ⟨p, by rw [find, hp]⟩
  · have hnone : found.lookup c = none :=
      Option.isNone_iff_eq_none.mp (Option.isSome_eq_false_iff.mp hunmet)
    rw [find, hnone]
    rfl

theorem failsAtFirst_edgeNodes (e : Edge) :
    FailsAtFirst (Need.isMet found) Need.failure (Need.ofEdge e) (edgeNodes found e) := by
  unfold Need.ofEdge
  refine (failsAtFirst_find found e.source).bind fun source _ => ?_
  refine (failsAtFirst_find found e.target).bind fun target _ => ?_
  cases e.label with
  | none => exact pure _ _ _
  | some s =>
      by_cases hempty : s = ""
      · subst hempty
        exact pure _ _ _
      · have hneeds : ((some s).toList.filter (· ≠ "")).map Need.width = [.width s] ++ [] := by
          simp [hempty]
        have hlabel := failsAtFirst_ofOverflow found (by simp [Need.failure])
          (failsAtFirst_boxedLabel found (labelAnchor e.connector.course source target) s)
        dsimp only
        rw [hneeds, if_neg (by simpa using hempty)]
        exact hlabel.bind fun _ _ => pure _ _ _

theorem failsAtFirst_connectors (edges : List Edge) :
    FailsAtFirst (Need.isMet found) Need.failure (edges.flatMap Need.ofEdge)
      (connectors found edges) := by
  rw [← List.append_nil (edges.flatMap Need.ofEdge)]
  refine (mapM fun e _ => failsAtFirst_edgeNodes found e).bind fun _ _ => ?_
  exact (failsAtFirst_ofOverflow found (by simp) (failsAtFirst_eventNodes found)).bind
    fun _ _ => pure _ _ _

end Needs

end Drawing

namespace Diagram

-- The events that are found are those that some lane of the tree names.
theorem isSome_lookup_events (d : Diagram) (c : Char) :
    ((Drawing.allEvents d.frame d.rows).lookup c).isSome ↔ d.signal.NamesEvent c := by
  rw [Drawing.allEvents, Drawing.isSome_lookup_placeAll, List.map_flatMap]
  simp only [List.lookup_nil, Option.isSome_none, Bool.false_eq_true, false_or, List.mem_flatMap,
    Drawing.mem_rowEvents_names, List.mem_filter, Drawing.isEventName, Bool.and_eq_true,
    bne_iff_ne]
  constructor
  · rintro ⟨row, hrow, l, node, hlane, hnode, hc, ⟨hopen, hclose⟩, hdot⟩
    obtain ⟨path, hpath⟩ := (d.signal.exists_row_iff l).mp ⟨row, hrow, hlane⟩
    exact ⟨hdot, hopen, hclose, path, l, node, hpath, hnode, hc⟩
  · rintro ⟨hdot, hopen, hclose, path, l, node, hpath, hnode, hc⟩
    obtain ⟨row, hrow, hlane⟩ := (d.signal.exists_row_iff l).mpr ⟨path, hpath⟩
    exact ⟨row, hrow, l, node, hlane, hnode, hc, ⟨hopen, hclose⟩, hdot⟩

open Drawing (Need)

-- All that a drawing needs, in the order in which it comes to it.
def needs (d : Diagram) : List Need :=
  let cycles := Drawing.wholeCycles d.frame d.longest
  d.rows.map (fun row => .width row.title)
    ++ (Need.ofAxis cycles d.head ++ Need.ofAxis cycles d.foot)
    ++ d.edges.flatMap Need.ofEdge

def Meets (d : Diagram) : Need → Prop
  | .width s => Text.Fits s
  | .labels t count => t.Fits count
  | .event name => d.signal.NamesEvent name

-- Whether everything that is added up on the way to a drawing stays small enough.
def Fits (d : Diagram) : Prop := ∀ n ∈ d.needs, n.isEvent = false → d.Meets n

-- No events have to be found for that.
instance (d : Diagram) : Decidable d.Fits :=
  decidable_of_iff (∀ n ∈ d.needs, n.isEvent = false → n.isMet [] = true) <| by
    refine forall₂_congr fun n _ => ?_
    cases n with
    | width s => exact imp_congr_right fun _ => decide_eq_true_iff
    | labels t count => exact imp_congr_right fun _ => decide_eq_true_iff
    | event name => simp [Need.isEvent]

theorem isMet_iff (d : Diagram) (n : Need) :
    n.isMet (Drawing.allEvents d.frame d.rows) = true ↔ d.Meets n := by
  cases n with
  | width s => exact decide_eq_true_iff
  | labels t count => exact decide_eq_true_iff
  | event name => exact d.isSome_lookup_events name

theorem failsAtFirst_draw (options : DrawingOptions) (d : Diagram) (index : ℕ) :
    FailsAtFirst (Need.isMet (Drawing.allEvents d.frame d.rows)) Need.failure d.needs
      (d.draw options index) := by
  have hparts : FailsAtFirst (Need.isMet (Drawing.allEvents d.frame d.rows)) Need.failure d.needs
      d.parts := by
    unfold needs
    rw [List.append_assoc, ← List.append_nil (d.edges.flatMap Need.ofEdge)]
    refine (Drawing.failsAtFirst_titleColumn _ _ d.rows).bind fun _ _ => ?_
    refine (Drawing.failsAtFirst_markLabels _ _ d _ _).bind fun _ _ => ?_
    exact (Drawing.failsAtFirst_connectors _ d.edges).bind fun _ _ => .pure _ _ _
  rw [draw_eq]
  exact hparts.map _

-- Labels that do not fit stop the drawing: they come before all edges, and the titles in front of
-- them can fail in no other way.
theorem draw_of_not_fits {d : Diagram} {t : Ticks} {count : ℕ}
    (hneed : Need.labels t count ∈
      Need.ofAxis (Drawing.wholeCycles d.frame d.longest) d.head ++
        Need.ofAxis (Drawing.wholeCycles d.frame d.longest) d.foot)
    (h : ¬ t.Fits count) (options : DrawingOptions) (index : ℕ) :
    d.draw options index = .error (.overflow .sum) := by
  refine (d.failsAtFirst_draw options index).error_of_unmet ?_ (List.mem_append_right _ hneed)
    (decide_eq_false h)
  intro n hn
  rcases List.mem_append.mp hn with htitle | haxes
  · obtain ⟨row, -, rfl⟩ := List.mem_map.mp htitle
    rfl
  · exact (List.mem_append.mp haxes).elim Drawing.failure_of_mem_ofAxis
      Drawing.failure_of_mem_ofAxis

theorem filter_isEvent_needs (d : Diagram) :
    d.needs.filter Need.isEvent = (d.edges.flatMap Edge.ends).map .event := by
  have hticks : ∀ t count, (Need.ofTicks t count).filter Need.isEvent = [] := by
    intro t count
    cases t <;> rfl
  have haxis : ∀ cycles a, (Need.ofAxis cycles a).filter Need.isEvent = [] := by
    intro cycles a
    cases a with
    | none => rfl
    | some a => simp [Need.ofAxis, hticks]
  have hwidths : ∀ texts : List String, (texts.map Need.width).filter Need.isEvent = [] := by
    intro texts
    rw [List.filter_eq_nil_iff, List.forall_mem_map]
    exact fun _ _ => Bool.false_ne_true
  have hedge : ∀ e, (Need.ofEdge e).filter Need.isEvent = e.ends.map .event := by
    intro e
    rw [Need.ofEdge, List.filter_append, hwidths, List.append_nil]
    rfl
  have htitles : (d.rows.map fun row => Need.width row.title).filter Need.isEvent = [] := by
    rw [← hwidths (d.rows.map Row.title), List.map_map]
    rfl
  simp only [needs, List.filter_append, htitles, haxis, List.filter_flatMap, hedge,
    List.map_flatMap, List.nil_append]

theorem failsAtFirst_draw_of_fits (options : DrawingOptions) {d : Diagram} (index : ℕ)
    (h : d.Fits) :
    FailsAtFirst (fun c => ((Drawing.allEvents d.frame d.rows).lookup c).isSome)
      DrawingError.undefinedEvent (d.edges.flatMap Edge.ends) (d.draw options index) := by
  have hevents := (d.failsAtFirst_draw options index).filter (p := Need.isEvent)
    fun n hn hevent => (d.isMet_iff n).mpr (h n hn hevent)
  rw [filter_isEvent_needs] at hevents
  exact hevents.of_map

theorem exists_draw_iff_of_fits (options : DrawingOptions) {d : Diagram} (index : ℕ)
    (h : d.Fits) :
    (∃ t, d.draw options index = .ok t) ↔
      ∀ e ∈ d.edges, d.signal.NamesEvent e.source ∧ d.signal.NamesEvent e.target := by
  rw [(failsAtFirst_draw_of_fits options index h).ok_iff]
  simp only [isSome_lookup_events, List.forall_mem_flatMap, Edge.ends, List.forall_mem_cons,
    List.not_mem_nil, IsEmpty.forall_iff, implies_true, and_true]

theorem not_fits_of_overflow {options : DrawingOptions} {d : Diagram} {index : ℕ}
    {reason : Overflow} (h : d.draw options index = .error (.overflow reason)) : ¬ d.Fits := by
  intro hfits
  obtain ⟨_, c, _, -, -, -, hc⟩ :=
    ((failsAtFirst_draw_of_fits options index hfits).error_iff _).mp h
  cases hc

-- A drawing is made if and only if all its needs are met, and the first one that is not is what it
-- fails with. Where nothing becomes too large these are the ends of the edges.
theorem draw_fails_at_first_unmet_need (options : DrawingOptions) (d : Diagram) (index : ℕ) :
    ((∃ t, d.draw options index = .ok t) ↔ ∀ n ∈ d.needs, d.Meets n) ∧
    (∀ err, d.draw options index = .error err ↔
      ∃ front n back, d.needs = front ++ n :: back ∧ (∀ m ∈ front, d.Meets m) ∧ ¬ d.Meets n ∧
        err = n.failure) ∧
    (d.Fits →
      ((∃ t, d.draw options index = .ok t) ↔
        ∀ e ∈ d.edges, d.signal.NamesEvent e.source ∧ d.signal.NamesEvent e.target) ∧
      ∀ err, d.draw options index = .error err ↔
        ∃ front c back, d.edges.flatMap Edge.ends = front ++ c :: back ∧
          (∀ b ∈ front, d.signal.NamesEvent b) ∧ ¬ d.signal.NamesEvent c ∧
          err = .undefinedEvent c) := by
  have h := d.failsAtFirst_draw options index
  refine ⟨?_, ?_, fun hfits => ⟨exists_draw_iff_of_fits options index hfits, ?_⟩⟩
  · rw [h.ok_iff]
    simp only [isMet_iff]
  · intro err
    rw [h.error_iff]
    simp only [isMet_iff, ← Bool.not_eq_true]
  · intro err
    rw [(failsAtFirst_draw_of_fits options index hfits).error_iff]
    simp only [isSome_lookup_events, ← Bool.not_eq_true]

-- An edge from an event that is there to one that is not, in a drawing in which nothing is large.
theorem draw_fails_at_first_unmet_need_dangling :
    let d : Diagram :=
      { signal := { entries := [.lane { name := "clk", wave := "p", node := some "a" }] }
        head := some { tick := some (.sequence 3) }
        edges := [{ source := 'a', target := 'b', label := some "x" }] }
    d.Fits ∧ ∀ options index, d.draw options index = .error (.undefinedEvent 'b') := by
  intro d
  have hfits : d.Fits := by decide +kernel
  refine ⟨hfits, fun options index => ?_⟩
  obtain ⟨-, -, hedges⟩ := draw_fails_at_first_unmet_need options d index
  refine ((hedges hfits).2 _).mpr ⟨['a'], 'b', [], rfl, ?_, ?_, rfl⟩
  · intro b hb
    rw [List.mem_singleton.mp hb]
    exact ⟨by decide, by decide, by decide, [0], _, "a", rfl, rfl, by decide⟩
  · rintro ⟨-, -, -, path, l, node, hpath, hnode, hmem⟩
    obtain ⟨row, hrow, hlane⟩ := (d.signal.exists_row_iff l).mpr ⟨path, hpath⟩
    rw [List.mem_singleton.mp (show row ∈ [_] from hrow)] at hlane
    cases hlane
    cases hnode
    exact absurd hmem (by decide)

-- Without any edge a drawing fails for the number behind the largest word.
theorem not_draw_fails_exactly_at_undefined_event :
    ¬ ∀ (options : DrawingOptions) (d : Diagram) (index : ℕ),
      (∃ t, d.draw options index = .ok t) ↔
        ∀ e ∈ d.edges, d.signal.NamesEvent e.source ∧ d.signal.NamesEvent e.target := by
  intro h
  let d : Diagram :=
    { signal := { entries := [.lane { wave := "0" }] }
      head := some { tick := some (.sequence Int64.maxValue) } }
  have hcycles : Drawing.wholeCycles d.frame d.longest = 1 := by decide
  have hneed : Need.labels (.sequence Int64.maxValue) 2 ∈
      Need.ofAxis (Drawing.wholeCycles d.frame d.longest) d.head ++
        Need.ofAxis (Drawing.wholeCycles d.frame d.longest) d.foot := by
    simp [hcycles, Need.ofAxis, Need.ofTicks, d]
  obtain ⟨t, ht⟩ := (h {} d 1).mpr (by simp [d])
  rw [draw_of_not_fits hneed (by decide)] at ht
  cases ht

end Diagram

end TimingDiagram
