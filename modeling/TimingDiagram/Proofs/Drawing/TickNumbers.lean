import TimingDiagram.Proofs.Document.Rows
import TimingDiagram.Proofs.Drawing.AxisLabels
import TimingDiagram.Proofs.Drawing.NamedEvents
import TimingDiagram.Proofs.Number.Saturation

namespace TimingDiagram

namespace Drawing

-- An axis has labels on the marks and labels between them.
inductive LabelRow where
  | tick | tock
deriving DecidableEq

namespace LabelRow

def name : LabelRow → String
  | tick => "tick"
  | tock => "tock"

def ticks (a : Axis) : LabelRow → Option Ticks
  | tick => a.tick
  | tock => a.tock

-- How many labels are asked for, and where the first one stands.
def count (cycles : ℕ) : LabelRow → ℕ
  | tick => cycles + 1
  | tock => cycles

def firstX (f : Frame) : LabelRow → ℕ
  | tick => 0
  | tock => markPitch f / 2

end LabelRow

-- An axis stands above the rows or below them.
inductive Side where
  | head | foot
deriving DecidableEq

namespace Side

def name : Side → String
  | head => "head"
  | foot => "foot"

def axis (d : Diagram) : Side → Option Axis
  | head => d.head
  | foot => d.foot

def labelY (rows : ℕ) : Side → ℤ
  | head => -5
  | foot => Frame.rowsHeight rows + 15

end Side

-- The labels of one kind that an axis draws.
def rowLabels (f : Frame) (length : ℕ) (a : Axis) (y : ℤ) (row : LabelRow) :
    Except Overflow (List Node) :=
  labelsOf f (row.ticks a) (row.firstX f) y (row.count (wholeCycles f length))

theorem axisLabels_some (f : Frame) (length : ℕ) (a : Axis) (y : ℤ) :
    axisLabels f length (some a) y = do
      let ticks ← rowLabels f length a y .tick
      let tocks ← rowLabels f length a y .tock
      return ticks ++ tocks := rfl

-- Where the marks of a sequence end before the words do, each has the number behind the one before.
theorem labelsOf_sequence {f : Frame} {offset : Int64} {x : ℕ} {y : ℤ} {count : ℕ}
    (hcount : count ≤ 2 ^ 63) (hlast : offset.toInt + count ≤ 2 ^ 63) :
    labelsOf f (some (.sequence offset)) x y count =
      .ok ((List.range count).map fun k => tickLabelAt f x y k (toString (offset.toInt + k))) := by
  obtain ⟨nodes, hnodes, hget⟩ :=
    tickLabels_of_fits (t := .sequence offset) f x y (Or.inr ⟨hcount, hlast⟩)
  rw [labelsOf, hnodes, Except.ok.injEq]
  apply List.ext_getElem?
  intro k
  rw [hget, List.getElem?_map]
  by_cases hk : k < count
  · rw [if_pos hk, List.getElem?_range hk, Ticks.text, Ticks.numberAt_of_lt offset (by omega)]
    rfl
  · rw [if_neg hk, List.getElem?_eq_none (by simpa using hk)]
    rfl

theorem isInfix_axisLabels {f : Frame} {length : ℕ} {a : Axis} {y : ℤ} {labels : List Node}
    (h : axisLabels f length (some a) y = .ok labels) (row : LabelRow) :
    ∃ nodes, rowLabels f length a y row = .ok nodes ∧ nodes <:+: labels := by
  rw [axisLabels_some] at h
  obtain ⟨ticks, hticks, h⟩ := bind_eq_ok.mp h
  obtain ⟨tocks, htocks, h⟩ := bind_eq_ok.mp h
  cases h
  cases row with
  | tick => exact ⟨ticks, hticks, (List.prefix_append _ _).isInfix⟩
  | tock => exact ⟨tocks, htocks, (List.suffix_append _ _).isInfix⟩

theorem isInfix_markLabels {f : Frame} {d : Diagram} {length rows : ℕ} {labels : List Node}
    {side : Side} {a : Axis} (h : markLabels f d length rows = .ok labels)
    (ha : side.axis d = some a) (row : LabelRow) :
    ∃ nodes, rowLabels f length a (side.labelY rows) row = .ok nodes ∧ nodes <:+: labels := by
  obtain ⟨above, habove, h⟩ := bind_eq_ok.mp h
  obtain ⟨below, hbelow, h⟩ := bind_eq_ok.mp h
  cases h
  cases side with
  | head =>
      change d.head = some a at ha
      rw [ha] at habove
      obtain ⟨nodes, hnodes, hinfix⟩ := isInfix_axisLabels habove row
      exact ⟨nodes, hnodes, hinfix.trans (List.prefix_append _ _).isInfix⟩
  | foot =>
      change d.foot = some a at ha
      rw [ha] at hbelow
      obtain ⟨nodes, hnodes, hinfix⟩ := isInfix_axisLabels hbelow row
      exact ⟨nodes, hnodes, hinfix.trans (List.suffix_append _ _).isInfix⟩

variable {options : DrawingOptions} {d : Diagram} {index : ℕ} {side : Side} {a : Axis}

theorem part?_marks (parts : Diagram.Parts) :
    (d.sheetWith options index parts).part?
        [s!"waves_{index}", s!"lanes_{index}", s!"gmarks_{index}"] =
      Element.ofNode? (marks d.frame d d.longest d.rows.length index parts.labels) := by
  rw [d.part?_lanes options index parts, Element.part?_singleton]
  apply Element.child?_eq (d.nodup_childIds_lanesWith options index parts)
  · exact List.mem_append_left _ (List.mem_append_left _
      (List.mem_append_right _ (List.mem_singleton_self _)))
  · exact Diagram.id?_group _ _

-- The labels of an axis are among what the marks of a drawing are drawn with.
theorem isInfix_marks {t : Element} (h : d.draw options index = .ok t)
    (ha : side.axis d = some a) (row : LabelRow) :
    ∃ layer nodes,
      t.part? [s!"waves_{index}", s!"lanes_{index}", s!"gmarks_{index}"] = some layer ∧
      rowLabels d.frame d.longest a (side.labelY d.rows.length) row = .ok nodes ∧
      nodes <:+: layer.children := by
  obtain ⟨parts, hparts, rfl⟩ := d.eq_sheetWith options index h
  obtain ⟨column, -, hparts⟩ := bind_eq_ok.mp hparts
  obtain ⟨labels, hlabels, hparts⟩ := bind_eq_ok.mp hparts
  obtain ⟨connectors, -, hparts⟩ := bind_eq_ok.mp hparts
  cases hparts
  obtain ⟨nodes, hnodes, hinfix⟩ := isInfix_markLabels (mapError_eq_ok.mp hlabels) ha row
  exact ⟨_, nodes, part?_marks _, hnodes, hinfix.trans (List.suffix_append _ _).isInfix⟩

theorem mem_ofAxis {row : LabelRow} {t : Ticks} (ha : side.axis d = some a)
    (ht : row.ticks a = some t) (cycles : ℕ) :
    Need.labels t (row.count cycles) ∈ Need.ofAxis cycles d.head ++ Need.ofAxis cycles d.foot := by
  have hrow : Need.labels t (row.count cycles) ∈ Need.ofAxis cycles (some a) := by
    cases row with
    | tick =>
        change a.tick = some t at ht
        simp [Need.ofAxis, Need.ofTicks, LabelRow.count, ht]
    | tock =>
        change a.tock = some t at ht
        simp [Need.ofAxis, Need.ofTicks, LabelRow.count, ht]
  cases side with
  | head =>
      change d.head = some a at ha
      rw [ha]
      exact List.mem_append_left _ hrow
  | foot =>
      change d.foot = some a at ha
      rw [ha]
      exact List.mem_append_right _ hrow

end Drawing

namespace Document

open Drawing

-- The number that starts a sequence of labels: a number, a text that reads as one, or a list of
-- one number.
def sequenceStart? : Json → Option Float
  | .number n => some n.toFloat
  | .string s => readFloat? (Text.trim s)
  | .array [.number n] => some n.toFloat
  | _ => none

theorem literal?_ne_sequence (items : List Json) (offset : Int64) :
    literal? items ≠ some (.sequence offset) := by
  intro h
  obtain ⟨labels, -, hlabels⟩ := Option.map_eq_some_iff.mp h
  cases hlabels

theorem sequence_eq_iff (x : Float) (offset : Int64) :
    sequence x = .sequence offset ↔ offset.toInt = wordValue x := by
  rw [sequence, Ticks.sequence.injEq, ← Int64.toInt_inj, toInt_saturate_truncate, eq_comm]

theorem listTicks?_eq_sequence_iff (items : List Json) (offset : Int64) :
    listTicks? items = some (.sequence offset) ↔
      ∃ x, sequenceStart? (.array items) = some x ∧ offset.toInt = wordValue x := by
  unfold listTicks?
  split
  · simp [sequenceStart?]
  · simp [sequenceStart?, sequence_eq_iff]
  · split
    · simp [sequenceStart?]
    · simp [sequenceStart?, literal?_ne_sequence]
  · next hempty hnumber _ =>
      have hstart : sequenceStart? (.array items) = none := by
        unfold sequenceStart?
        split
        · next h => cases h
        · next h => cases h
        · next n h => exact absurd (Json.array.inj h) (hnumber n)
        · rfl
      simp [hstart, literal?_ne_sequence]

-- A value describes a sequence exactly if it has a number to start with.
theorem ticks?_eq_sequence_iff (value : Json) (offset : Int64) :
    ticks? value = some (.sequence offset) ↔
      ∃ x, sequenceStart? value = some x ∧ offset.toInt = wordValue x := by
  cases value with
  | number n => simp [ticks?, sequenceStart?, sequence_eq_iff]
  | string s =>
      simp only [ticks?, sequenceStart?]
      cases readFloat? (Text.trim s) with
      | none =>
          by_cases hwords : (Text.words s).isEmpty <;> simp [hwords]
      | some x => simp [sequence_eq_iff]
  | array items => exact listTicks?_eq_sequence_iff items offset
  | null | bool b | object members => simp [ticks?, sequenceStart?]

theorem axis_diagram (members : Members) (value : Json) (side : Side) :
    side.axis (diagram members value).value = (member [] members side.name none axis).value := by
  cases side <;> rfl

-- An axis stems from the object that stands under its name.
theorem exists_of_axis {members : Members} {value : Json} {side : Side} {a : Axis}
    (h : side.axis (diagram members value).value = some a) :
    ∃ axisMembers, members.lookup side.name = some (.object axisMembers) ∧
      ∀ row : LabelRow, row.ticks a = (axisMembers.lookup row.name).bind ticks? := by
  rw [axis_diagram, member] at h
  cases hlookup : members.lookup side.name with
  | none =>
      rw [hlookup] at h
      cases h
  | some value =>
      rw [hlookup] at h
      cases value with
      | object axisMembers =>
          refine ⟨axisMembers, rfl, ?_⟩
          intro row
          cases h
          cases row <;> exact value_member_ticks _ axisMembers _
      | null | bool b | number n | string s | array items => cases h

-- The offset of a sequence is the number it starts with, brought into 64 bits, and its labels count
-- on from there if they end before the words do. Where they do not, and do not start at 0, nothing
-- is drawn at all.
theorem sequence_labels_count_on {source : String} {loaded : Loaded}
    (h : load source = .ok loaded) :
    ∃ members, Json.parse source = .ok (.object members) ∧
      ∀ (side : Side) (a : Axis), side.axis loaded.diagram = some a →
        ∃ axisMembers, members.lookup side.name = some (.object axisMembers) ∧
          ∀ (row : LabelRow) (offset : Int64),
            (row.ticks a = some (.sequence offset) ↔
              ∃ value x, axisMembers.lookup row.name = some value ∧
                sequenceStart? value = some x ∧ offset.toInt = wordValue x) ∧
            (row.ticks a = some (.sequence offset) →
              let f := loaded.diagram.frame
              let count := row.count (wholeCycles f loaded.diagram.longest)
              let inWords := count ≤ 2 ^ 63 ∧ offset.toInt + count ≤ 2 ^ 63
              ((∀ k < count, (Ticks.sequence offset).label k =
                  .ok (some (toString (offset.toInt + k)))) ↔ inWords) ∧
              (inWords → ∀ options index t, loaded.diagram.draw options index = .ok t →
                ∃ layer, t.part? [s!"waves_{index}", s!"lanes_{index}", s!"gmarks_{index}"] =
                    some layer ∧
                  ((List.range count).map fun k =>
                    tickLabelAt f (row.firstX f) (side.labelY loaded.diagram.rows.length) k
                      (toString (offset.toInt + k))) <:+: layer.children) ∧
              (offset ≠ 0 → ¬ inWords → ∀ options index,
                loaded.diagram.draw options index = .error (.overflow .sum))) := by
  obtain ⟨members, value, hsource, -, -, hdiagram⟩ := exists_of_load h
  refine ⟨members, hsource, ?_⟩
  intro side a ha
  obtain ⟨axisMembers, hlookup, hticks⟩ := exists_of_axis (hdiagram ▸ ha)
  refine ⟨axisMembers, hlookup, ?_⟩
  intro row offset
  refine ⟨?_, ?_⟩
  · rw [hticks, Option.bind_eq_some_iff]
    constructor
    · rintro ⟨value, hvalue, hsequence⟩
      obtain ⟨x, hx, hoffset⟩ := (ticks?_eq_sequence_iff value offset).mp hsequence
      exact ⟨value, x, hvalue, hx, hoffset⟩
    · rintro ⟨value, x, hvalue, hx, hoffset⟩
      exact ⟨value, hvalue, (ticks?_eq_sequence_iff value offset).mpr ⟨x, hx, hoffset⟩⟩
  · intro hsequence f count inWords
    refine ⟨Ticks.forall_label_eq_iff offset count, ?_, ?_⟩
    · rintro ⟨hcount, hlast⟩ options index t ht
      obtain ⟨layer, nodes, hlayer, hnodes, hinfix⟩ := isInfix_marks ht ha row
      rw [rowLabels, hsequence, labelsOf_sequence hcount hlast] at hnodes
      cases hnodes
      exact ⟨layer, hlayer, hinfix⟩
    · intro hne hover
      exact Diagram.draw_of_not_fits (mem_ofAxis ha hsequence _) (not_or.mpr ⟨hne, hover⟩)

-- Labels that start at a number and labels that start below zero, and labels that start at the
-- largest word.
theorem sequence_labels_count_on_infinity :
    let source := "\x7b\"foot\": \x7b\"tock\": \"-2.5\"\x7d, " ++
      "\"head\": \x7b\"tick\": \" 7 \"\x7d, \"signal\": [\x7b\"wave\": \"01\"\x7d]\x7d"
    let endless := "\x7b\"head\": \x7b\"tick\": \" INF \"\x7d, " ++
      "\"signal\": [\x7b\"wave\": \"01\"\x7d]\x7d"
    (∃ loaded t layer, load source = .ok loaded ∧ loaded.diagram.draw {} 1 = .ok t ∧
      t.part? ["waves_1", "lanes_1", "gmarks_1"] = some layer ∧
      let f := loaded.diagram.frame
      [tickLabelAt f 0 (-5) 0 "7", tickLabelAt f 0 (-5) 1 "8", tickLabelAt f 0 (-5) 2 "9"] <:+:
        layer.children ∧
      [tickLabelAt f 20 45 0 "-2", tickLabelAt f 20 45 1 "-1"] <:+: layer.children) ∧
    ∃ loaded, load endless = .ok loaded ∧
      ∀ options index, loaded.diagram.draw options index = .error (.overflow .sum) := by
  intro source endless
  let lanes : Json := .array [.object [("wave", .string "01")]]
  have hload : ∀ {source members}, Json.parse source = .ok (.object members) →
      members.lookup "signal" = some lanes → (diagram members lanes).problems = [] →
      load source = .ok ⟨(diagram members lanes).value, []⟩ := by
    intro source members hsource hsignal hproblems
    rw [load_eq hsource hsignal, settle_of_no_error (by simp [hproblems]), hproblems]
    rfl
  constructor
  · let members : Members := [("foot", .object [("tock", .string "-2.5")]),
      ("head", .object [("tick", .string " 7 ")]), ("signal", lanes)]
    have hsource : Json.parse source = .ok (.object members) := by
      simp only [source, members, lanes]
      rfl
    have hproblems : (diagram members lanes).problems = [] := by
      rw [problems_diagram rfl]
      rfl
    have hloaded := hload hsource rfl hproblems
    have hfits : (diagram members lanes).value.Fits := by decide +kernel
    have hedges : (diagram members lanes).value.edges = [] := rfl
    obtain ⟨t, ht⟩ := (Diagram.exists_draw_iff_of_fits {} 1 hfits).mpr (by simp [hedges])
    have hcycles : wholeCycles (diagram members lanes).value.frame
        (diagram members lanes).value.longest = 2 := by decide
    have hx : LabelRow.tock.firstX (diagram members lanes).value.frame = 20 := by decide
    have hy : Side.foot.labelY (diagram members lanes).value.rows.length = 45 := by decide
    have hhead : sequence (nearest false 7 0) = .sequence 7 := congrArg Ticks.sequence (by decide)
    have hfoot : sequence (nearest true 25 (-1)) = .sequence (-2) :=
      congrArg Ticks.sequence (by decide)
    obtain ⟨_, -, haxes⟩ := sequence_labels_count_on hloaded
    obtain ⟨_, -, htick⟩ := haxes .head _ rfl
    obtain ⟨_, -, htock⟩ := haxes .foot _ rfl
    have hlabels := ((htick .tick 7).2 (congrArg some hhead)).2.1 (by decide) {} 1 t ht
    have hothers := ((htock .tock (-2)).2 (congrArg some hfoot)).2.1 (by decide) {} 1 t ht
    obtain ⟨layer, hlayer, hinfix⟩ := hlabels
    obtain ⟨layer', hlayer', hinfix'⟩ := hothers
    cases hlayer.symm.trans hlayer'
    refine ⟨_, t, layer, hloaded, ht, hlayer, ?_, ?_⟩
    · dsimp only at hinfix ⊢
      rw [hcycles] at hinfix
      exact hinfix
    · dsimp only at hinfix' ⊢
      rw [hcycles, hx, hy] at hinfix'
      exact hinfix'
  · let members : Members := [("head", .object [("tick", .string " INF ")]), ("signal", lanes)]
    have hsource : Json.parse endless = .ok (.object members) := by
      simp only [endless, members, lanes]
      rfl
    have hproblems : (diagram members lanes).problems = [] := by
      rw [problems_diagram rfl]
      rfl
    have hloaded := hload hsource rfl hproblems
    have hhead : sequence (Float.ofBits 0x7ff0000000000000) = .sequence Int64.maxValue :=
      congrArg Ticks.sequence (by decide)
    obtain ⟨_, -, haxes⟩ := sequence_labels_count_on hloaded
    obtain ⟨_, -, htick⟩ := haxes .head _ rfl
    have hlabels := ((htick .tick Int64.maxValue).2 (congrArg some hhead)).2.2
    exact ⟨_, hloaded, hlabels (by decide) (by decide)⟩

-- A lane of one cycle, with a label for its start and one for its end.
def lastWord : String :=
  "\x7b\"signal\":[\x7b\"wave\":\"0\"\x7d],\"head\":\x7b\"tick\":9223372036854775807\x7d\x7d"

theorem load_lastWord :
    ∃ loaded a, load lastWord = .ok loaded ∧ loaded.diagram.head = some a ∧
      a.tick = some (.sequence Int64.maxValue) ∧
      wholeCycles loaded.diagram.frame loaded.diagram.longest = 1 := by
  let lanes : Json := .array [.object [("wave", .string "0")]]
  let members : Members :=
    [("head", .object [("tick", .number (.integer 9223372036854775807))]), ("signal", lanes)]
  have hsource : Json.parse lastWord = .ok (.object members) := by
    simp only [lastWord, members, lanes]
    rfl
  have hsignal : members.lookup "signal" = some lanes := rfl
  have hproblems : (diagram members lanes).problems = [] := by
    rw [problems_diagram hsignal]
    rfl
  have hload := (load_eq hsource hsignal).trans (settle_of_no_error (by simp [hproblems]))
  have hoffset : sequence (Json.Number.integer 9223372036854775807).toFloat =
      .sequence Int64.maxValue := congrArg Ticks.sequence (by decide)
  have hcycles : wholeCycles (diagram members lanes).value.frame
      (diagram members lanes).value.longest = 1 := by decide
  exact ⟨_, _, hload, rfl, congrArg some hoffset, hcycles⟩

-- The label behind the largest word is not the next number.
theorem not_sequence_labels_in_words :
    ¬ ∀ (source : String) (loaded : Loaded), load source = .ok loaded →
      ∀ (side : Side) (a : Axis) (row : LabelRow) (offset : Int64),
        side.axis loaded.diagram = some a → row.ticks a = some (.sequence offset) →
        ∀ k < row.count (wholeCycles loaded.diagram.frame loaded.diagram.longest),
          IsWord (offset.toInt + k) ∧
            (Ticks.sequence offset).label k = .ok (some (toString (offset.toInt + k))) := by
  intro h
  obtain ⟨loaded, a, hload, ha, htick, hcycles⟩ := load_lastWord
  have hcount : 1 < LabelRow.tick.count
      (wholeCycles loaded.diagram.frame loaded.diagram.longest) := by
    rw [hcycles]
    decide
  have hlast := h lastWord loaded hload .head a .tick Int64.maxValue ha htick 1 hcount
  exact absurd hlast.1 (by decide)

theorem draw_lastWord :
    ∃ loaded, load lastWord = .ok loaded ∧
      ∀ options index, loaded.diagram.draw options index = .error (.overflow .sum) := by
  obtain ⟨loaded, a, hload, ha, htick, hcycles⟩ := load_lastWord
  have hhead : Side.head.axis loaded.diagram = some a := ha
  have hrow : LabelRow.tick.ticks a = some (.sequence Int64.maxValue) := htick
  refine ⟨loaded, hload, Diagram.draw_of_not_fits (mem_ofAxis hhead hrow _) ?_⟩
  rw [hcycles]
  decide

end Document

end TimingDiagram
