import Mathlib
import TimingDiagram.Signal.Outline

namespace TimingDiagram

namespace GroupBox

-- The row below the last one of a box.
def bottom (b : GroupBox) : ℕ := b.y + b.height

def covers (b : GroupBox) (row : ℕ) : Bool := b.y ≤ row && row < b.bottom

-- How a box stands to one that is listed later: above it, or inside it and further to the right.
def Nests (b later : GroupBox) : Prop :=
  b.bottom ≤ later.y ∨ later.y ≤ b.y ∧ b.bottom ≤ later.bottom ∧ later.x < b.x

end GroupBox

namespace Outline

theorem indent_pos (name : Option String) : 0 < indent name := by
  cases name <;> simp [indent]

-- The indentation of a row as its boxes tell it: that of the first listed box around it.
def indentAt (o : Outline) (depth row : ℕ) : ℕ :=
  ((o.boxes.find? fun b => b.covers row).map GroupBox.x).getD depth

-- What holds of the outline of entries that stand at `depth` and are numbered from `start`.
structure Nested (depth start : ℕ) (o : Outline) : Prop where
  numbers : o.rows.map Row.number = List.range' start o.rows.length
  start_le : ∀ b ∈ o.boxes, start ≤ b.y
  bottom_le : ∀ b ∈ o.boxes, b.bottom ≤ start + o.rows.length
  indent_le : ∀ b ∈ o.boxes, depth + indent b.name ≤ b.x
  nests : o.boxes.Pairwise GroupBox.Nests
  depths : ∀ row ∈ o.rows, row.depth = o.indentAt depth row.number

theorem nested_nil (depth start : ℕ) : Nested depth start ⟨[], []⟩ where
  numbers := rfl
  start_le := by simp
  bottom_le := by simp
  indent_le := by simp
  nests := List.Pairwise.nil
  depths := by simp

theorem nested_row (depth start : ℕ) (lane : Option Lane) :
    Nested depth start ⟨[⟨start, depth, lane⟩], []⟩ where
  numbers := rfl
  start_le := by simp
  bottom_le := by simp
  indent_le := by simp
  nests := List.Pairwise.nil
  depths := by simp [indentAt]

namespace Nested

variable {depth start : ℕ} {o others : Outline}

theorem number_mem (h : Nested depth start o) {row : Row} (hrow : row ∈ o.rows) :
    start ≤ row.number ∧ row.number < start + o.rows.length := by
  have hmem := List.mem_map_of_mem (f := Row.number) hrow
  rw [h.numbers, List.mem_range'_1] at hmem
  exact hmem

theorem number_eq (h : Nested depth start o) {n : ℕ} {row : Row} (hrow : o.rows[n]? = some row) :
    row.number = start + n := by
  have hn := (List.getElem?_eq_some_iff.mp hrow).1
  have hnumber := congrArg (·[n]?) h.numbers
  simp only [List.getElem?_map, hrow, Option.map_some, List.getElem?_range' hn, Nat.one_mul]
    at hnumber
  exact Option.some.inj hnumber

theorem depth_le (h : Nested depth start o) {row : Row} (hrow : row ∈ o.rows) :
    depth ≤ row.depth := by
  rw [h.depths row hrow, indentAt]
  cases hfind : o.boxes.find? fun b => b.covers row.number with
  | none => exact le_rfl
  | some b => exact (Nat.le_add_right _ _).trans (h.indent_le b (List.mem_of_find?_eq_some hfind))

-- No box covers a row outside of the rows it was made with.
theorem covers_eq_false (h : Nested depth start o) {row : ℕ}
    (hrow : row < start ∨ start + o.rows.length ≤ row) (b : GroupBox) (hb : b ∈ o.boxes) :
    b.covers row = false := by
  have hstart := h.start_le b hb
  have hbottom := h.bottom_le b hb
  simp only [GroupBox.covers, Bool.and_eq_false_iff, decide_eq_false_iff_not]
  omega

theorem find_eq_none (h : Nested depth start o) {row : ℕ}
    (hrow : row < start ∨ start + o.rows.length ≤ row) :
    o.boxes.find? (fun b => b.covers row) = none := by
  rw [List.find?_eq_none]
  intro b hb
  rw [h.covers_eq_false hrow b hb]
  decide

-- Entries behind others are numbered on, and neither sees the boxes of the other.
theorem append (h : Nested depth start o) (hothers : Nested depth (start + o.rows.length) others) :
    Nested depth start ⟨o.rows ++ others.rows, o.boxes ++ others.boxes⟩ where
  numbers := by
    rw [List.map_append, h.numbers, hothers.numbers, List.length_append, List.range'_append_1]
  start_le := by
    intro b hb
    rcases List.mem_append.mp hb with hb | hb
    · exact h.start_le b hb
    · exact (Nat.le_add_right _ _).trans (hothers.start_le b hb)
  bottom_le := by
    intro b hb
    rw [List.length_append]
    rcases List.mem_append.mp hb with hb | hb
    · have hbottom := h.bottom_le b hb
      omega
    · have hbottom := hothers.bottom_le b hb
      omega
  indent_le := by
    intro b hb
    rcases List.mem_append.mp hb with hb | hb
    · exact h.indent_le b hb
    · exact hothers.indent_le b hb
  nests := by
    refine List.pairwise_append.mpr ⟨h.nests, hothers.nests, ?_⟩
    intro b hb later hlater
    exact Or.inl ((h.bottom_le b hb).trans (hothers.start_le later hlater))
  depths := by
    intro row hrow
    unfold indentAt
    rw [List.find?_append]
    rcases List.mem_append.mp hrow with hrow | hrow
    · rw [hothers.find_eq_none (Or.inl (h.number_mem hrow).2), Option.or_none]
      exact h.depths row hrow
    · rw [h.find_eq_none (Or.inr (hothers.number_mem hrow).1), Option.none_or]
      exact hothers.depths row hrow

-- The box of a group comes after those inside it and covers all of its rows.
theorem enclose (name : Option String) (h : Nested (depth + indent name) start o) :
    Nested depth start
      ⟨o.rows, o.boxes ++ [⟨name, depth + indent name, start, o.rows.length⟩]⟩ where
  numbers := h.numbers
  start_le := by
    intro b hb
    rcases List.mem_append.mp hb with hb | hb
    · exact h.start_le b hb
    · rw [List.mem_singleton.mp hb]
  bottom_le := by
    intro b hb
    rcases List.mem_append.mp hb with hb | hb
    · exact h.bottom_le b hb
    · rw [List.mem_singleton.mp hb]
      exact le_rfl
  indent_le := by
    intro b hb
    rcases List.mem_append.mp hb with hb | hb
    · have hindent := h.indent_le b hb
      omega
    · rw [List.mem_singleton.mp hb]
  nests := by
    refine List.pairwise_append.mpr ⟨h.nests, List.pairwise_singleton _ _, ?_⟩
    intro b hb own hown
    rw [List.mem_singleton.mp hown]
    have hpos := indent_pos b.name
    have hindent := h.indent_le b hb
    exact Or.inr ⟨h.start_le b hb, h.bottom_le b hb, by dsimp only; omega⟩
  depths := by
    intro row hrow
    obtain ⟨hstart, hend⟩ := h.number_mem hrow
    have hown : GroupBox.covers ⟨name, depth + indent name, start, o.rows.length⟩ row.number := by
      simp [GroupBox.covers, GroupBox.bottom, hstart, hend]
    rw [h.depths row hrow, indentAt, indentAt, List.find?_append, List.find?_singleton, if_pos hown]
    cases o.boxes.find? fun b => b.covers row.number <;> rfl

end Nested

mutual

theorem nested_ofEntry (depth start : ℕ) (e : Entry) :
    Nested depth start (ofEntry depth start e) := by
  cases e with
  | lane l => exact nested_row depth start (some l)
  | spacer => exact nested_row depth start none
  | group name entries => exact (nested_ofEntries (depth + indent name) start entries).enclose name

theorem nested_ofEntries (depth start : ℕ) (entries : List Entry) :
    Nested depth start (ofEntries depth start entries) := by
  cases entries with
  | nil => exact nested_nil depth start
  | cons e rest => exact (nested_ofEntry depth start e).append (nested_ofEntries depth _ rest)

end

end Outline

-- Boxes stay within the rows, no two of them cross, and a row is indented as far as the innermost
-- box around it, which is the first one listed.
theorem Group.outline_nested (root : Group) :
    (∀ b ∈ root.outline.boxes, b.y + b.height ≤ root.outline.rows.length) ∧
    root.outline.boxes.Pairwise (fun b later =>
      b.y + b.height ≤ later.y ∨
        later.y ≤ b.y ∧ b.y + b.height ≤ later.y + later.height ∧ later.x < b.x) ∧
    ∀ n row, root.outline.rows[n]? = some row →
      row.depth = root.outline.indentAt (Outline.indent root.name) n := by
  have h := Outline.nested_ofEntries (Outline.indent root.name) 0 root.entries
  refine ⟨?_, h.nests, ?_⟩
  · intro b hb
    have hbottom := h.bottom_le b hb
    rw [Nat.zero_add] at hbottom
    exact hbottom
  · intro n row hrow
    have hnumber := h.number_eq hrow
    rw [Nat.zero_add] at hnumber
    rw [h.depths row (List.mem_of_getElem? hrow), hnumber]
    rfl

end TimingDiagram
