import TimingDiagram.Proofs.Drawing.RowParts

namespace TimingDiagram

open Wave (isBracket)

-- The characters of the node string of a row.
def Row.nodeChars (row : Row) : List Char := ((row.lane.bind (·.node)).map String.toList).getD []

namespace Drawing

-- Where a character comes last in the node strings of some rows: in a row, behind a text.
def LastAt (rows : List Row) (c : Char) (row : Row) (front : List Char) : Prop :=
  ∃ above below back, rows = above ++ row :: below ∧ row.nodeChars = front ++ c :: back ∧
    c ∉ back ∧ ∀ other ∈ below, c ∉ other.nodeChars

section Positions

variable {α : Type} [Scalar α]

-- How long a cycle is behind a text: a quarter if the last bracket of the text opens.
def stepBehind (front : List Char) : α :=
  if (front.filter isBracket).getLast? = some '<' then 0.25 else 1.0

-- The position behind a text: the cycles of all its characters but brackets, added up from the
-- left. Each is as long as the text before it says.
def positionBehind (front : List Char) : α :=
  (front.zipIdx.filter fun e => !isBracket e.1).foldl
    (fun position e => position + stepBehind (front.take e.2)) 0.0

variable (front : List Char) (c : Char)

theorem stepBehind_concat : (stepBehind (front ++ [c]) : α) =
    if isBracket c then (if c = '<' then 0.25 else 1.0) else stepBehind front := by
  rw [stepBehind, stepBehind, List.filter_append]
  by_cases hc : isBracket c
  · simp [hc]
  · simp [hc]

theorem positionBehind_concat : (positionBehind (front ++ [c]) : α) =
    if isBracket c then positionBehind front else positionBehind front + stepBehind front := by
  have hfront : ((front.zipIdx.filter fun e => !isBracket e.1).foldl
      (fun position e => position + stepBehind ((front ++ [c]).take e.2)) 0.0 : α) =
      positionBehind front := by
    apply List.foldl_ext
    intro position e he
    have hlt : e.2 < front.length := by
      simpa using List.snd_lt_of_mem_zipIdx (List.mem_of_mem_filter he)
    rw [List.take_append_of_le_length hlt.le]
  rw [positionBehind, List.zipIdx_append, List.filter_append, List.foldl_append, hfront]
  by_cases hc : isBracket c
  · simp [hc]
  · simp [hc]

-- What is read behind a text is read with the step and from the position behind it.
theorem eventsFrom_behind (f : Frame) (t : Timing α) (y : α) (front rest : List Char) :
    eventsFrom f t y 1.0 0.0 (front ++ rest) =
      eventsFrom f t y 1.0 0.0 front ++
        eventsFrom f t y (stepBehind front) (positionBehind front) rest := by
  induction front using List.reverseRecOn generalizing rest with
  | nil => rfl
  | append_singleton front c ih =>
      have hnext : eventsFrom f t y (stepBehind front) (positionBehind front) (c :: rest) =
          eventsFrom f t y (stepBehind front) (positionBehind front) [c] ++
            eventsFrom f t y (stepBehind (front ++ [c])) (positionBehind (front ++ [c])) rest := by
        rw [stepBehind_concat, positionBehind_concat]
        by_cases hopen : c = '<'
        · simp [eventsFrom, isBracket, hopen]
        · by_cases hclose : c = '>'
          · simp [eventsFrom, isBracket, hclose]
          · by_cases hdot : c = '.'
            · simp [eventsFrom, isBracket, hdot]
            · simp [eventsFrom, isBracket, hopen, hclose, hdot]
      rw [List.append_assoc, List.singleton_append, ih, ih [c], hnext, List.append_assoc]

end Positions

section Names

variable {f : Frame} {rows : List Row} {row : Row} {front : List Char} {c : Char}

theorem eraseDups_concat (names : List Char) (c : Char) :
    (names ++ [c]).eraseDups = if c ∈ names then names.eraseDups else names.eraseDups ++ [c] := by
  rw [List.eraseDups_append]
  by_cases hc : c ∈ names
  · simp [List.removeAll, hc]
  · simp [List.removeAll, hc, List.eraseDups_cons]

theorem nodup_eraseDups (names : List Char) : names.eraseDups.Nodup := by
  induction names using List.reverseRecOn with
  | nil => exact List.nodup_nil
  | append_singleton names c ih =>
      rw [eraseDups_concat]
      split
      · exact ih
      · rename_i hc
        rw [← List.concat_eq_append]
        exact ih.concat (mt List.mem_eraseDups.mp hc)

-- A name that is there already stays where it is, a new one comes last.
theorem map_fst_place (name : Char) (p : Point Float) (found : List (Char × Point Float)) :
    (place name p found).map Prod.fst =
      if name ∈ found.map Prod.fst then found.map Prod.fst
      else found.map Prod.fst ++ [name] := by
  induction found with
  | nil => rfl
  | cons e rest ih =>
      obtain ⟨n, q⟩ := e
      rw [place]
      by_cases hn : n = name
      · simp [hn]
      · have hne : name ≠ n := Ne.symm hn
        rw [if_neg hn, List.map_cons, ih]
        split <;> simp_all

theorem placeAll_concat (found added : List (Char × Point Float)) (e : Char × Point Float) :
    placeAll found (added ++ [e]) = place e.1 e.2 (placeAll found added) := by
  rw [placeAll, List.foldl_append]
  rfl

theorem map_fst_placeAll (added : List (Char × Point Float)) :
    (placeAll [] added).map Prod.fst = (added.map Prod.fst).eraseDups := by
  induction added using List.reverseRecOn with
  | nil => rfl
  | append_singleton added e ih =>
      rw [placeAll_concat, map_fst_place, ih, List.map_append, List.map_singleton, eraseDups_concat]
      simp only [List.mem_eraseDups]

theorem lookup_placeAll_of_not_mem {added : List (Char × Point Float)}
    (hc : c ∉ added.map Prod.fst) (found : List (Char × Point Float)) :
    (placeAll found added).lookup c = found.lookup c := by
  induction added using List.reverseRecOn with
  | nil => rfl
  | append_singleton added e ih =>
      rw [List.map_append, List.mem_append, not_or, List.map_singleton, List.mem_singleton] at hc
      rw [placeAll_concat, lookup_place, if_neg hc.2, ih hc.1]

-- The last of the events with a name says where it lies.
theorem lookup_placeAll_last {back : List (Char × Point Float)} (hc : c ∉ back.map Prod.fst)
    (found front : List (Char × Point Float)) (p : Point Float) :
    (placeAll found (front ++ (c, p) :: back)).lookup c = some p := by
  have hcut : placeAll found (front ++ (c, p) :: back) =
      placeAll (placeAll found (front ++ [(c, p)])) back := by
    rw [placeAll, placeAll, placeAll, ← List.foldl_append, List.append_assoc, List.singleton_append]
  rw [hcut, lookup_placeAll_of_not_mem hc, placeAll_concat, lookup_place, if_pos rfl]

theorem rowEvents_eq (f : Frame) (t : Timing Float) (row : Row) :
    rowEvents f t row =
      eventsFrom f t (Scalar.ofNat (eventY f row.number)) 1.0 0.0 row.nodeChars := by
  rw [rowEvents, Row.nodeChars]
  cases row.lane.bind (·.node) <;> rfl

theorem map_fst_rowEvents (f : Frame) (t : Timing Float) (row : Row) :
    (rowEvents f t row).map Prod.fst = row.nodeChars.filter isEventName := by
  rw [rowEvents_eq, map_fst_eventsFrom]

theorem map_fst_allEvents (f : Frame) (rows : List Row) :
    (allEvents f rows).map Prod.fst =
      ((rows.flatMap Row.nodeChars).filter isEventName).eraseDups := by
  rw [allEvents, map_fst_placeAll, List.map_flatMap, List.filter_flatMap]
  simp only [map_fst_rowEvents]

theorem eventsFrom_name (hc : isEventName c) (f : Frame) (t : Timing Float)
    (y step position : Float) (back : List Char) :
    eventsFrom f t y step position (c :: back) =
      (c, ⟨f.cycleX t position, y⟩) :: eventsFrom f t y step (position + step) back := by
  simp only [isEventName, Bool.and_eq_true, bne_iff_ne, ne_eq] at hc
  obtain ⟨⟨hopen, hclose⟩, hdot⟩ := hc
  simp [eventsFrom, hopen, hclose, hdot]

-- An event lies where its name comes last.
theorem lookup_allEvents (hc : isEventName c) (h : LastAt rows c row front) :
    (allEvents f rows).lookup c = some ⟨f.cycleX row.timing (positionBehind front),
      Scalar.ofNat (eventY f row.number)⟩ := by
  obtain ⟨above, below, back, rfl, hnode, hback, hbelow⟩ := h
  rw [allEvents, List.flatMap_append, List.flatMap_cons, rowEvents_eq f row.timing row, hnode,
    eventsFrom_behind, eventsFrom_name hc, List.append_assoc, List.cons_append, ← List.append_assoc]
  apply lookup_placeAll_last
  simp only [List.map_append, map_fst_eventsFrom, List.map_flatMap, map_fst_rowEvents,
    List.mem_append, List.mem_flatMap, List.mem_filter]
  rintro (⟨hmem, -⟩ | ⟨other, hother, hmem, -⟩)
  · exact hback hmem
  · exact hbelow other hother hmem

theorem exists_lastAt (h : c ∈ rows.flatMap Row.nodeChars) :
    ∃ row front, LastAt rows c row front := by
  induction rows with
  | nil => cases h
  | cons first rest ih =>
      by_cases hrest : c ∈ rest.flatMap Row.nodeChars
      · obtain ⟨row, front, above, below, back, rfl, hcut⟩ := ih hrest
        exact ⟨row, front, first :: above, below, back, rfl, hcut⟩
      · have hfirst : c ∈ first.nodeChars.reverse := by
          rw [List.flatMap_cons, List.mem_append] at h
          exact List.mem_reverse.mpr (h.resolve_right hrest)
        obtain ⟨back, front, hcut, hback⟩ := List.eq_append_cons_of_mem hfirst
        have hnode : first.nodeChars = front.reverse ++ c :: back.reverse := by
          rw [← List.reverse_reverse first.nodeChars, hcut]
          simp
        refine ⟨first, front.reverse, [], rest, back.reverse, rfl, hnode, by simpa using hback, ?_⟩
        exact fun other hother hmem => hrest (List.mem_flatMap.mpr ⟨other, hother, hmem⟩)

-- Where each name comes once, what is in a list is what is found in it.
theorem mem_iff_lookup {found : List (Char × Point Float)} (h : (found.map Prod.fst).Nodup)
    (c : Char) (p : Point Float) : (c, p) ∈ found ↔ found.lookup c = some p := by
  rw [List.lookup_eq_some_iff]
  constructor
  · intro hmem
    obtain ⟨front, back, rfl⟩ := List.append_of_mem hmem
    refine ⟨front, back, rfl, ?_⟩
    intro e he
    rw [List.map_append, List.map_cons, List.nodup_append] at h
    have hne : e.1 ≠ c :=
      h.2.2 e.1 (List.mem_map_of_mem he) c List.mem_cons_self
    exact bne_iff_ne.mpr hne.symm
  · rintro ⟨front, back, rfl, -⟩
    exact List.mem_append_right front List.mem_cons_self

end Names

-- A label is a group at its place, and its text is all the text in it.
theorem boxedLabel_eq {centre : Point Float} {s : String} {label : Node}
    (h : boxedLabel centre s = .ok label) : ∃ children,
      label = .element "g" [("transform", translate centre.x (some centre.y))] children ∧
      Element.nodesText children = s := by
  obtain ⟨textWidth, -, rfl⟩ := map_eq_ok.mp h
  refine ⟨_, rfl, ?_⟩
  simp [Element.nodesText, Element.nodeText]

-- Each name has one event, in the order in which the names come first, and it lies where its name
-- comes last. The connectors are drawn edge by edge, each with its label behind it, and then the
-- names in their order.
theorem arcs_follow_event_order (f : Frame) (rows : List Row) (t : Timing Float) :
    let found := eventsAfter f rows t
    found.map Prod.fst = ((rows.flatMap Row.nodeChars).filter isEventName).eraseDups ∧
      (∀ c p, (c, p) ∈ found ↔ isEventName c ∧ ∃ row front, LastAt rows c row front ∧
        p = ⟨f.cycleX row.timing (positionBehind front), Scalar.ofNat (eventY f row.number)⟩) ∧
      (∀ edges index node t', (arcs f rows edges index).run t = .ok (node, t') →
        ∃ drawn names, List.Forall₂ (EdgeDrawn found) edges drawn ∧
          List.Forall₂ (fun e label => boxedLabel e.2 e.1.toString = .ok label)
            (found.filter fun e => (Text.isLowercase e.1 || e.1.isDigit) && 0.0 < e.2.x) names ∧
          node = .element "g" [("id", s!"wavearcs_{index}")] (drawn.flatten ++ names)) ∧
      ∀ (centre : Point Float) s label, boxedLabel centre s = .ok label → ∃ children,
        label = .element "g" [("transform", translate centre.x (some centre.y))] children ∧
        Element.nodesText children = s := by
  intro found
  have hfound : found = allEvents f rows := eventsAfter_eq f rows t
  have hnames := map_fst_allEvents f rows
  have hnodup : (found.map Prod.fst).Nodup := by
    rw [hfound, hnames]
    exact nodup_eraseDups _
  refine ⟨by rw [hfound, hnames], ?_, ?_, fun _ _ _ => boxedLabel_eq⟩
  · intro c p
    rw [mem_iff_lookup hnodup, hfound]
    constructor
    · intro hp
      have hmem : c ∈ (allEvents f rows).map Prod.fst :=
        List.mem_map_of_mem (f := Prod.fst) ((mem_iff_lookup (hfound ▸ hnodup) c p).mpr hp)
      rw [hnames, List.mem_eraseDups, List.mem_filter] at hmem
      obtain ⟨row, front, hlast⟩ := exists_lastAt hmem.1
      rw [lookup_allEvents hmem.2 hlast, Option.some.injEq] at hp
      exact ⟨hmem.2, row, front, hlast, hp.symm⟩
    · rintro ⟨hc, row, front, hlast, rfl⟩
      exact lookup_allEvents hc hlast
  · intro edges index node t' hrun
    rw [run_arcs, ← hfound] at hrun
    obtain ⟨nodes, hnodes, hnode⟩ := map_eq_ok.mp hrun
    cases hnode
    obtain ⟨drawn, names, hdrawn, hshown, rfl⟩ := drawn_of_connectors hnodes
    exact ⟨drawn, names, hdrawn, hshown, rfl⟩

-- Two names that both come again, one in its own row and one in the row below.
theorem arcs_follow_event_order_again :
    let f : Frame := ⟨Skin.default.cell, 1, 0, 0, 0, 0⟩
    let first : Row := ⟨0, 0, some { node := some "a<b>a" }⟩
    let second : Row := ⟨1, 0, some { node := some ".<.b", period := 2.0 }⟩
    let edge : Edge := { source := 'a', target := 'b', label := some "x" }
    let found := eventsAfter f [first, second] Timing.default
    found.map Prod.fst = ['a', 'b'] ∧
      ('a', ⟨f.cycleX first.timing (0.0 + 1.0 + 0.25), Float.ofNat 15⟩) ∈ found ∧
      ('b', ⟨f.cycleX second.timing (0.0 + 1.0 + 0.25), Float.ofNat 45⟩) ∈ found ∧
      ∃ node t', (arcs f [first, second] [edge] 0).run Timing.default = .ok (node, t') ∧
        ∃ attrs centre label names, boxedLabel centre "x" = .ok label ∧
          node = .element "g" [("id", "wavearcs_0")]
            (.element "path" attrs [] :: label :: names) := by
  intro f first second edge found
  obtain ⟨hnames, hpoints, hdrawn, -⟩ :=
    arcs_follow_event_order f [first, second] Timing.default
  refine ⟨hnames.trans rfl, ?_, ?_, ?_⟩
  · have hposition : (positionBehind ['a', '<', 'b', '>'] : Float) = 0.0 + 1.0 + 0.25 := rfl
    have hy : eventY f first.number = 15 := by
      norm_num [eventY, f, first, Skin.default, Frame.rowY, Frame.firstRow]
    rw [← hposition, ← hy]
    exact (hpoints _ _).mpr ⟨rfl, first, _,
      ⟨[], [second], [], rfl, rfl, by decide, by decide⟩, rfl⟩
  · have hposition : (positionBehind ['.', '<', '.'] : Float) = 0.0 + 1.0 + 0.25 := rfl
    have hy : eventY f second.number = 45 := by
      norm_num [eventY, f, second, Skin.default, Frame.rowY, Frame.firstRow, Frame.rowPitch]
    rw [← hposition, ← hy]
    exact (hpoints _ _).mpr ⟨rfl, second, _,
      ⟨[first], [], [], rfl, rfl, by decide, by decide⟩, rfl⟩
  · have hmet : ∀ n ∈ [edge].flatMap Need.ofEdge, n.isMet (allEvents f [first, second]) := by
      decide +kernel
    obtain ⟨nodes, hnodes⟩ := (failsAtFirst_connectors _ [edge]).ok_iff.mpr hmet
    have hrun := run_arcs f [first, second] [edge] 0 Timing.default
    rw [hnodes] at hrun
    refine ⟨_, _, hrun, ?_⟩
    obtain ⟨drawn, names, hedges, -, hnode⟩ := hdrawn [edge] 0 _ _ hrun
    obtain ⟨_, _, hfirst, hrest, rfl⟩ := List.forall₂_cons_left_iff.mp hedges
    obtain ⟨source, target, labels, -, -, hlabels, rfl⟩ := hfirst
    obtain ⟨label, _, hlabel, hnil, rfl⟩ := List.forall₂_cons_left_iff.mp hlabels
    rw [List.forall₂_nil_left_iff.mp hnil, List.forall₂_nil_left_iff.mp hrest] at hnode
    exact ⟨_, _, label, names, hlabel, hnode⟩

end Drawing

end TimingDiagram
