import TimingDiagram.Proofs.Signal.Address
import TimingDiagram.Signal.Outline

namespace TimingDiagram

namespace Entry

-- How far a group moves what stands inside it to the right.
def margin : Entry → ℕ
  | .group (some _) _ => 25
  | .group none _ => 10
  | .lane _ | .spacer => 0

def title? : Entry → Option String
  | .group name _ => name
  | .lane _ | .spacer => none

def lane? : Entry → Option Lane
  | .lane l => some l
  | .group _ _ | .spacer => none

-- The margins of all groups around an address, the outermost entry included.
def indentTo (e : Entry) (path : Address) : ℕ :=
  ∑ n ∈ Finset.range path.length, (e.at? (path.take n)).elim 0 margin

theorem indent_eq_margin (name : Option String) (entries : List Entry) :
    Outline.indent name = (Entry.group name entries).margin := by
  cases name <;> rfl

@[simp] theorem indentTo_nil (e : Entry) : e.indentTo [] = 0 := rfl

theorem indentTo_cons (e : Entry) (i : ℕ) (path : Address) :
    e.indentTo (i :: path) =
      e.margin + e.children[i]?.elim 0 fun child => child.indentTo path := by
  unfold indentTo
  rw [List.length_cons, Finset.sum_range_succ', Nat.add_comm]
  congr 1
  simp only [List.take_succ_cons, at?]
  cases e.children[i]? with
  | none => simp
  | some child => rfl

-- The row at an address, in a drawing where the outermost entry stands at `depth`.
def rowAt (e : Entry) (depth : ℕ) (place : Address × ℕ) : Row :=
  ⟨place.2, depth + e.indentTo place.1, (e.at? place.1).bind lane?⟩

-- The box of the group at an address, where `start` rows stand before the outermost entry.
def boxAt (e : Entry) (depth start : ℕ) (path : Address) : GroupBox :=
  { name := (e.at? path).bind title?
    x := depth + e.indentTo path + (e.at? path).elim 0 margin
    y := start + (e.addresses isRow).countP (· < path)
    height := (e.addresses isRow).countP (path <+: ·) }

section Siblings

variable (name : Option String) (e : Entry) (rest : List Entry) (depth start : ℕ)

theorem rowAt_first (path : Address) (number : ℕ) :
    (Entry.group name (e :: rest)).rowAt depth (0 :: path, number) =
      e.rowAt (depth + Outline.indent name) (path, number) := by
  simp only [rowAt, indentTo_cons, indent_eq_margin name (e :: rest), Nat.add_assoc]
  rfl

theorem rowAt_later (path : Address) (number : ℕ) :
    (Entry.group name (e :: rest)).rowAt depth (path.later, number) =
      (Entry.group name rest).rowAt depth (path, number) := by
  cases path with
  | nil => rfl
  | cons i path =>
      simp only [rowAt, Address.later, indentTo_cons, ← indent_eq_margin]
      rfl

theorem addresses_isRow_group (entries : List Entry) :
    (Entry.group name entries).addresses isRow = addressesIn isRow entries :=
  List.append_nil _

theorem addresses_isGroup_group (entries : List Entry) :
    (Entry.group name entries).addresses isGroup = addressesIn isGroup entries ++ [[]] := rfl

-- Inside the first entry nothing of its siblings is counted.
theorem boxAt_first (path : Address) :
    (Entry.group name (e :: rest)).boxAt depth start (0 :: path) =
      e.boxAt (depth + Outline.indent name) start path := by
  have hbefore : (addressesIn isRow rest).countP (fun row => row.later < 0 :: path) = 0 := by
    rw [List.countP_eq_zero]
    intro row hrow
    simpa using lt_asymm (Address.zero_cons_lt_later path (ne_nil_of_mem_addressesIn isRow hrow))
  have hinside : (addressesIn isRow rest).countP (fun row => 0 :: path <+: row.later) = 0 := by
    rw [List.countP_eq_zero]
    intro row _
    simpa using Address.not_zero_cons_prefix_later path row
  simp only [boxAt, addresses_isRow_group, addressesIn, List.countP_append, List.countP_map,
    Function.comp_def, hbefore, hinside, List.cons_lt_cons_iff, lt_irrefl, true_and, false_or,
    List.prefix_cons_inj, Nat.add_zero, indentTo_cons, indent_eq_margin name (e :: rest),
    Nat.add_assoc]
  rfl

-- Behind the first entry all of its rows have gone before.
theorem boxAt_later {path : Address} (h : path ≠ []) :
    (Entry.group name (e :: rest)).boxAt depth start path.later =
      (Entry.group name rest).boxAt depth (start + (e.addresses isRow).length) path := by
  have hbefore : (e.addresses isRow).countP (fun row => 0 :: row < path.later) =
      (e.addresses isRow).length := by
    rw [List.countP_eq_length]
    intro row _
    simpa using Address.zero_cons_lt_later row h
  have hinside : (e.addresses isRow).countP (fun row => path.later <+: 0 :: row) = 0 := by
    rw [List.countP_eq_zero]
    intro row _
    simpa using Address.not_later_prefix_zero_cons h row
  obtain ⟨i, path, rfl⟩ := List.exists_cons_of_ne_nil h
  simp only [boxAt, addresses_isRow_group, addressesIn, List.countP_append, List.countP_map,
    Function.comp_def, hbefore, hinside, Address.later_lt_later, Address.later_prefix_later,
    Nat.zero_add, Nat.add_assoc]
  simp only [Address.later, indentTo_cons, ← indent_eq_margin]
  rfl

end Siblings

end Entry

mutual

theorem rows_ofEntry (depth start : ℕ) (e : Entry) :
    (Outline.ofEntry depth start e).rows =
      ((e.addresses Entry.isRow).zipIdx start).map (e.rowAt depth) := by
  cases e with
  | lane l => rfl
  | spacer => rfl
  | group name entries =>
      rw [Entry.addresses, Entry.ownAddress]
      simpa [Outline.ofEntry, Entry.isRow] using rows_ofEntries depth start name entries

theorem rows_ofEntries (depth start : ℕ) (name : Option String) (entries : List Entry) :
    (Outline.ofEntries (depth + Outline.indent name) start entries).rows =
      ((addressesIn Entry.isRow entries).zipIdx start).map
        ((Entry.group name entries).rowAt depth) := by
  cases entries with
  | nil => rfl
  | cons e rest =>
      have hfirst := rows_ofEntry (depth + Outline.indent name) start e
      have hlength : (Outline.ofEntry (depth + Outline.indent name) start e).rows.length =
          (e.addresses Entry.isRow).length := by
        rw [hfirst, List.length_map, List.length_zipIdx]
      simp only [Outline.ofEntries, addressesIn]
      rw [hlength, rows_ofEntries depth _ name rest, hfirst, List.zipIdx_append, List.map_append,
        List.zipIdx_map, List.zipIdx_map, List.map_map, List.map_map, List.length_map]
      congr 1
      · apply List.map_congr_left
        intro place _
        exact (Entry.rowAt_first name e rest depth place.1 place.2).symm
      · apply List.map_congr_left
        intro place _
        exact (Entry.rowAt_later name e rest depth place.1 place.2).symm

end

mutual

theorem boxes_ofEntry (depth start : ℕ) (e : Entry) :
    (Outline.ofEntry depth start e).boxes =
      (e.addresses Entry.isGroup).map (e.boxAt depth start) := by
  cases e with
  | lane l => rfl
  | spacer => rfl
  | group name entries =>
      have hrows := congrArg List.length (rows_ofEntries depth start name entries)
      rw [List.length_map, List.length_zipIdx] at hrows
      have hown : (Entry.group name entries).boxAt depth start [] =
          ⟨name, depth + Outline.indent name, start, (addressesIn Entry.isRow entries).length⟩ := by
        simp [Entry.boxAt, Entry.addresses_isRow_group, Entry.at?, Entry.title?,
          Entry.indent_eq_margin name entries]
      rw [Entry.addresses_isGroup_group, List.map_append, List.map_singleton, hown,
        ← boxes_ofEntries depth start name entries, ← hrows]
      rfl

theorem boxes_ofEntries (depth start : ℕ) (name : Option String) (entries : List Entry) :
    (Outline.ofEntries (depth + Outline.indent name) start entries).boxes =
      (addressesIn Entry.isGroup entries).map
        ((Entry.group name entries).boxAt depth start) := by
  cases entries with
  | nil => rfl
  | cons e rest =>
      have hrows := congrArg List.length (rows_ofEntry (depth + Outline.indent name) start e)
      rw [List.length_map, List.length_zipIdx] at hrows
      simp only [Outline.ofEntries, addressesIn]
      rw [hrows, boxes_ofEntry _ start e, boxes_ofEntries depth _ name rest, List.map_append,
        List.map_map, List.map_map]
      congr 1
      · apply List.map_congr_left
        intro path _
        exact (Entry.boxAt_first name e rest depth start path).symm
      · apply List.map_congr_left
        intro path hpath
        exact (Entry.boxAt_later name e rest depth start
          (ne_nil_of_mem_addressesIn Entry.isGroup hpath)).symm

end

mutual

theorem any_lane_ofEntry (depth start : ℕ) (e : Entry) :
    (Outline.ofEntry depth start e).rows.any (·.lane.isSome) = e.hasLane := by
  cases e with
  | lane l => rfl
  | spacer => rfl
  | group name entries => exact any_lane_ofEntries _ start entries

theorem any_lane_ofEntries (depth start : ℕ) (entries : List Entry) :
    (Outline.ofEntries depth start entries).rows.any (·.lane.isSome) = anyLane entries := by
  cases entries with
  | nil => rfl
  | cons e rest =>
      rw [Outline.ofEntries, anyLane, List.any_append, any_lane_ofEntry, any_lane_ofEntries]

end

namespace Group

-- The root as an entry, so that its own address is the empty one.
def toEntry (root : Group) : Entry := .group root.name root.entries

theorem hasNoLanes_iff (root : Group) :
    root.hasNoLanes = true ↔ ∀ row ∈ root.outline.rows, row.lane = none := by
  have hany := any_lane_ofEntries (Outline.indent root.name) 0 root.entries
  rw [hasNoLanes, ← hany]
  simp [outline]

-- An outline has a row for each lane and spacer of its tree, in the order in which they begin, and
-- a box for each nested group, in the order in which they end.
theorem outline_lists_tree (root : Group) :
    ∃ rows groups : List Address,
      rows.Pairwise (· < ·) ∧
      (∀ path, path ∈ rows ↔ (root.toEntry.at? path).any Entry.isRow = true) ∧
      groups.Pairwise ClosesBefore ∧
      (∀ path, path ∈ groups ↔
        path ≠ [] ∧ (root.toEntry.at? path).any Entry.isGroup = true) ∧
      root.outline.rows = rows.zipIdx.map (fun (path, number) =>
        { number := number
          depth := root.toEntry.indentTo path
          lane := (root.toEntry.at? path).bind Entry.lane? }) ∧
      root.outline.boxes = groups.map (fun path =>
        { name := (root.toEntry.at? path).bind Entry.title?
          x := root.toEntry.indentTo path + (root.toEntry.at? path).elim 0 Entry.margin
          y := rows.countP (· < path)
          height := rows.countP (path <+: ·) }) ∧
      (root.hasNoLanes = true ↔ ∀ row ∈ root.outline.rows, row.lane = none) := by
  have hrows := rows_ofEntries 0 0 root.name root.entries
  have hboxes := boxes_ofEntries 0 0 root.name root.entries
  rw [Nat.zero_add] at hrows hboxes
  refine ⟨root.toEntry.addresses Entry.isRow, addressesIn Entry.isGroup root.entries,
    pairwise_lt_rows root.toEntry, mem_addresses Entry.isRow root.toEntry,
    closesBefore_addressesIn Entry.isGroup root.entries,
    mem_addressesIn Entry.isGroup root.entries root.name, ?_, ?_, root.hasNoLanes_iff⟩
  · rw [outline, hrows, toEntry, Entry.addresses_isRow_group]
    apply List.map_congr_left
    intro place _
    rw [Entry.rowAt, Nat.zero_add]
  · rw [outline, hboxes, toEntry]
    apply List.map_congr_left
    intro path _
    rw [Entry.boxAt, Nat.zero_add, Nat.zero_add]

end Group

end TimingDiagram
