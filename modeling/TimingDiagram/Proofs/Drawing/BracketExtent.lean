import TimingDiagram.Drawing.Brackets
import TimingDiagram.Proofs.Document.Rows

namespace TimingDiagram

-- A coordinate of a curve that leaves `a` towards `b` and comes into `d` from `c`.
def bezier (a b c d t : ℚ) : ℚ :=
  (1 - t) ^ 3 * a + 3 * (1 - t) ^ 2 * t * b + 3 * (1 - t) * t ^ 2 * c + t ^ 3 * d

-- A curve whose control points do not turn back does not turn back itself.
theorem monotoneOn_bezier {a b c d : ℚ} (hab : a ≤ b) (hbc : b ≤ c) (hcd : c ≤ d) :
    MonotoneOn (bezier a b c d) (Set.Icc 0 1) := by
  rintro s ⟨hs, -⟩ t ⟨-, ht⟩ hst
  have hsplit : ∀ r, bezier a b c d r =
      a + (b - a) * (1 - (1 - r) ^ 3) + (c - b) * (3 * r ^ 2 - 2 * r ^ 3) + (d - c) * r ^ 3 := by
    intro r
    unfold bezier
    ring
  have hfirst : 1 - (1 - s) ^ 3 ≤ 1 - (1 - t) ^ 3 :=
    sub_le_sub_left (pow_le_pow_left₀ (by linarith) (by linarith) 3) 1
  have hmiddle : 3 * s ^ 2 - 2 * s ^ 3 ≤ 3 * t ^ 2 - 2 * t ^ 3 := by
    have hfactor : 0 ≤ 3 * (s + t) - 2 * (s ^ 2 + s * t + t ^ 2) := by nlinarith
    nlinarith [mul_nonneg (sub_nonneg.mpr hst) hfactor]
  have hlast : s ^ 3 ≤ t ^ 3 := pow_le_pow_left₀ hs hst 3
  rw [hsplit, hsplit]
  gcongr

namespace Stroke

-- How far a stroke has come down at a time between 0 and 1.
def dropAt (t : ℚ) : Stroke → ℚ
  | .line _ y => y * t
  | .curve _ y₁ _ y₂ _ y => bezier 0 y₁ y₂ y t

-- How much of a stroke is drawn at a time, where a unit of time is spent on each.
def drawn (t : ℚ) : ℚ := max 0 (min 1 t)

-- How far some strokes have come down that are drawn one after the other.
def dropOf : List Stroke → ℚ → ℚ
  | [], _ => 0
  | s :: rest, t => s.dropAt (drawn t) + dropOf rest (t - 1)

theorem drawn_mem (t : ℚ) : drawn t ∈ Set.Icc (0 : ℚ) 1 :=
  ⟨le_max_left _ _, max_le zero_le_one (min_le_left _ _)⟩

theorem monotone_drawn : Monotone drawn := by
  intro s t hst
  exact max_le_max le_rfl (min_le_min le_rfl hst)

end Stroke

namespace Bracket

open Stroke (drawn drawn_mem monotone_drawn)

-- How far down the strokes of a bracket have come at a time between 0 and 3.
def strokeY (b : Bracket) (t : ℚ) : ℚ := b.y + 1 / 2 + Stroke.dropOf b.strokes t

theorem strokeY_eq (b : Bracket) (t : ℚ) :
    b.strokeY t = b.y + 1 / 2 + bezier 0 0 2 5 (drawn t) + b.run * drawn (t - 1) +
      bezier 0 3 5 5 (drawn (t - 2)) := by
  have htwo : t - 1 - 1 = t - 2 := by ring
  simp only [strokeY, strokes, Stroke.dropOf, Stroke.dropAt, htwo]
  push_cast
  ring

variable {b : Bracket}

theorem monotone_strokeY (hrun : 0 ≤ b.run) : Monotone b.strokeY := by
  intro s t hst
  have hdrawn : ∀ c : ℚ, drawn (s - c) ≤ drawn (t - c) :=
    fun c => monotone_drawn (sub_le_sub_right hst c)
  have hfirst := monotoneOn_bezier (a := 0) (b := 0) (c := 2) (d := 5) (by norm_num) (by norm_num)
    (by norm_num) (drawn_mem s) (drawn_mem t) (monotone_drawn hst)
  have hlast := monotoneOn_bezier (a := 0) (b := 3) (c := 5) (d := 5) (by norm_num) (by norm_num)
    (by norm_num) (drawn_mem (s - 2)) (drawn_mem (t - 2)) (hdrawn 2)
  have hmiddle : (b.run : ℚ) * drawn (s - 1) ≤ b.run * drawn (t - 1) :=
    mul_le_mul_of_nonneg_left (hdrawn 1) (Int.cast_nonneg hrun)
  rw [strokeY_eq, strokeY_eq]
  linarith

theorem strokeY_zero (b : Bracket) : b.strokeY 0 = b.y + 1 / 2 := by
  norm_num [strokeY_eq, drawn, bezier]

theorem strokeY_one (b : Bracket) : b.strokeY 1 = b.strokeY 0 + 5 := by
  norm_num [strokeY_eq, drawn, bezier]

theorem strokeY_two (b : Bracket) : b.strokeY 2 = b.strokeY 1 + b.run := by
  norm_num [strokeY_eq, drawn, bezier]

theorem strokeY_three (b : Bracket) : b.strokeY 3 = b.strokeY 2 + 5 := by
  norm_num [strokeY_eq, drawn, bezier]

section Boxes

variable (headHeight : ℕ) (box : GroupBox)

theorem run_ofBox : (ofBox headHeight box).run = 30 * box.height - 16 := by
  simp only [ofBox, Frame.rowPitch]
  omega

theorem strokeY_ofBox_zero :
    (ofBox headHeight box).strokeY 0 = 30 * box.y + headHeight + 7 / 2 := by
  rw [strokeY_zero, ofBox, Frame.rowPitch]
  push_cast
  ring

theorem strokeY_ofBox_two : (ofBox headHeight box).strokeY 2 =
    (ofBox headHeight box).strokeY 1 + (30 * box.height - 16) := by
  rw [strokeY_two, run_ofBox]
  push_cast
  rfl

theorem strokeY_ofBox_three : (ofBox headHeight box).strokeY 3 =
    30 * (box.y + box.height) + headHeight - 5 / 2 := by
  rw [strokeY_three, strokeY_ofBox_two, strokeY_one, strokeY_ofBox_zero]
  ring

-- A box without rows leaves no room for the ends of its bracket.
theorem monotone_strokeY_ofBox_iff :
    Monotone (ofBox headHeight box).strokeY ↔ 0 < box.height := by
  constructor
  · intro h
    have hrun := h (show (1 : ℚ) ≤ 2 by norm_num)
    rw [strokeY_ofBox_two, le_add_iff_nonneg_right, sub_nonneg] at hrun
    by_contra hheight
    rw [Nat.eq_zero_of_not_pos hheight] at hrun
    norm_num at hrun
  · intro h
    apply monotone_strokeY
    rw [run_ofBox]
    omega

theorem strokeY_ofBox_mem (hheight : 0 < box.height) {t : ℚ} (ht : t ∈ Set.Icc (0 : ℚ) 3) :
    (ofBox headHeight box).strokeY t ∈
      Set.Icc (30 * box.y + headHeight + 7 / 2 : ℚ)
        (30 * (box.y + box.height) + headHeight - 5 / 2) := by
  have hdown := (monotone_strokeY_ofBox_iff headHeight box).mpr hheight
  rw [← strokeY_ofBox_zero, ← strokeY_ofBox_three]
  exact ⟨hdown ht.1, hdown ht.2⟩

theorem strokeY_ofBox_within_iff :
    (∀ t ∈ Set.Icc (0 : ℚ) 3, 30 * box.y + headHeight ≤ (ofBox headHeight box).strokeY t ∧
      (ofBox headHeight box).strokeY t ≤ 30 * (box.y + box.height) + headHeight) ↔
      0 < box.height := by
  constructor
  · intro h
    have hstart := (h 0 (by norm_num)).2
    rw [strokeY_ofBox_zero] at hstart
    by_contra hheight
    rw [Nat.eq_zero_of_not_pos hheight, Nat.cast_zero] at hstart
    linarith
  · intro hheight t ht
    obtain ⟨hlow, hhigh⟩ := strokeY_ofBox_mem headHeight box hheight ht
    exact ⟨le_trans (by linarith) hlow, le_trans hhigh (by linarith)⟩

end Boxes

-- Of two boxes with rows that share none of them, one ends before the other one begins.
theorem bottom_le_or_bottom_le {box other : GroupBox} (hbox : 0 < box.height)
    (hother : 0 < other.height) (h : ∀ row, ¬ (box.covers row ∧ other.covers row)) :
    box.bottom ≤ other.y ∨ other.bottom ≤ box.y := by
  have hfirst := h other.y
  have hsecond := h box.y
  simp only [GroupBox.covers, Bool.and_eq_true, decide_eq_true_eq] at hfirst hsecond
  unfold GroupBox.bottom at *
  omega

theorem strokeY_lt_strokeY {headHeight : ℕ} {box other : GroupBox} (hbox : 0 < box.height)
    (hother : 0 < other.height) (h : box.bottom ≤ other.y) {s t : ℚ} (hs : s ∈ Set.Icc (0 : ℚ) 3)
    (ht : t ∈ Set.Icc (0 : ℚ) 3) :
    (ofBox headHeight box).strokeY s < (ofBox headHeight other).strokeY t := by
  have hend := (strokeY_ofBox_mem headHeight box hbox hs).2
  have hstart := (strokeY_ofBox_mem headHeight other hother ht).1
  have hrows : (box.y + box.height : ℚ) ≤ other.y := by exact_mod_cast h
  linarith

end Bracket

-- The bracket of a group stays beside its rows and runs downwards, unless there are none. Those of
-- two groups that have rows but none in common stand one above the other.
theorem Group.brackets_within_rows (root : Group) (headHeight : ℕ) :
    (∀ box ∈ root.outline.boxes,
      let stroke := (Bracket.ofBox headHeight box).strokeY
      stroke 0 = 30 * box.y + headHeight + 7 / 2 ∧ stroke 1 = stroke 0 + 5 ∧
      stroke 2 = stroke 1 + (30 * box.height - 16) ∧ stroke 3 = stroke 2 + 5 ∧
      (Monotone stroke ↔ 0 < box.height) ∧
      ((∀ t ∈ Set.Icc (0 : ℚ) 3, 30 * box.y + headHeight ≤ stroke t ∧
        stroke t ≤ 30 * (box.y + box.height) + headHeight) ↔ 0 < box.height)) ∧
    ∀ box ∈ root.outline.boxes, ∀ other ∈ root.outline.boxes,
      0 < box.height → 0 < other.height → (∀ row, ¬ (box.covers row ∧ other.covers row)) →
      let stroke := (Bracket.ofBox headHeight box).strokeY
      let otherStroke := (Bracket.ofBox headHeight other).strokeY
      (∀ s ∈ Set.Icc (0 : ℚ) 3, ∀ t ∈ Set.Icc (0 : ℚ) 3, stroke s < otherStroke t) ∨
        ∀ s ∈ Set.Icc (0 : ℚ) 3, ∀ t ∈ Set.Icc (0 : ℚ) 3, otherStroke t < stroke s := by
  constructor
  · intro box _ stroke
    exact ⟨Bracket.strokeY_ofBox_zero headHeight box, Bracket.strokeY_one _,
      Bracket.strokeY_ofBox_two headHeight box, Bracket.strokeY_three _,
      Bracket.monotone_strokeY_ofBox_iff headHeight box,
      Bracket.strokeY_ofBox_within_iff headHeight box⟩
  · intro box _ other _ hbox hother hrows stroke otherStroke
    rcases Bracket.bottom_le_or_bottom_le hbox hother hrows with h | h
    · exact Or.inl fun s hs t ht => Bracket.strokeY_lt_strokeY hbox hother h hs ht
    · exact Or.inr fun s hs t ht => Bracket.strokeY_lt_strokeY hother hbox h ht hs

namespace Document

-- The bracket of an empty group runs upwards, past the row above it.
theorem not_brackets_within_rows :
    ¬ ∀ (source : String) (loaded : Loaded), load source = .ok loaded →
      ∀ (headHeight : ℕ), ∀ box ∈ loaded.diagram.signal.outline.boxes,
        let stroke := (Bracket.ofBox headHeight box).strokeY
        Monotone stroke ∧ ∀ t ∈ Set.Icc (0 : ℚ) 3,
          30 * box.y + headHeight ≤ stroke t ∧
            stroke t ≤ 30 * (box.y + box.height) + headHeight := by
  intro h
  let source := "\x7b\"signal\":[[\"a\",\x7b\"wave\":\"0\"\x7d],[]]\x7d"
  let items : List Json :=
    [.array [.string "a", .object [("wave", .string "0")]], .array []]
  let members : Members := [("signal", .array items)]
  have hsource : Json.parse source = .ok (.object members) := by
    simp only [source, members, items]
    rfl
  have hsignal : members.lookup "signal" = some (.array items) := rfl
  have hproblems : (diagram members (.array items)).problems = [] := by
    rw [problems_diagram hsignal]
    rfl
  have hload := (load_eq hsource hsignal).trans (settle_of_no_error (by simp [hproblems]))
  have hbox : (⟨none, 20, 1, 0⟩ : GroupBox) ∈
      (diagram members (.array items)).value.signal.outline.boxes := by
    rw [signal_diagram]
    exact List.mem_cons_of_mem _ (List.mem_singleton_self _)
  have hdown := (h source _ hload 0 _ hbox).1
  exact absurd ((Bracket.monotone_strokeY_ofBox_iff 0 _).mp hdown) (by simp)

end Document

end TimingDiagram
