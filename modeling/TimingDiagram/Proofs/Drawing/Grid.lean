import TimingDiagram.Proofs.Wave.Span
import TimingDiagram.Drawing.Row

namespace TimingDiagram

theorem truncated_intCast (n : ℤ) : Scalar.truncated (n : ℚ) = n := by
  simp only [Scalar.truncated, Rat.ceil_intCast, Rat.floor_intCast, ite_self]

theorem roundedUp_intCast (n : ℤ) : Scalar.roundedUp (n : ℚ) = n := by
  simp only [Scalar.roundedUp, Rat.ceil_intCast]

theorem upTo_intCast (cap : ℕ) (n : ℤ) : Scalar.upTo cap (n : ℚ) = min cap n.toNat := by
  simp only [Scalar.upTo, Rat.floor_intCast]

section Phase

variable {phase : ℚ} {halves : ℤ}

theorem literal_two_mul (h : 2 * phase = halves) : (2.0 : ℚ) * phase = halves := by
  rw [← h]
  norm_num

-- A phase of whole half cycles takes off as many bricks, and none if it is negative.
theorem Wave.shifted_of_two_mul (h : 2 * phase = halves) (bricks : List Brick) :
    shifted phase bricks = bricks.drop halves.toNat := by
  have hdrop : shifted phase bricks = bricks.drop (min bricks.length halves.toNat) := by
    rw [← upTo_intCast, ← roundedUp_intCast halves, ← literal_two_mul h]
    rfl
  rw [hdrop]
  rcases Nat.le_total bricks.length halves.toNat with hle | hle
  · rw [Nat.min_eq_left hle, List.drop_length, List.drop_eq_nil_of_le hle]
  · rw [Nat.min_eq_right hle]

theorem Wave.bricks_zero (wave : String) (stretch : ℚ) :
    bricks wave stretch (0 : ℚ) = unshifted wave (Stretch.of stretch) := by
  have h : 2 * (0 : ℚ) = (0 : ℤ) := by norm_num
  rw [bricks, shifted_of_two_mul h, Int.toNat_zero, List.drop_zero]

-- What a phase does beyond taking bricks off is moving a lane to the right.
theorem Drawing.phaseOffset_of_two_mul (h : 2 * phase = halves) :
    phaseOffset phase = halves.toNat - halves := by
  have hoffset : phaseOffset phase =
      if 0 < phase then Scalar.roundedUp (halves : ℚ) - halves else -halves := by
    rw [← literal_two_mul h]
    norm_num [phaseOffset]
  rw [hoffset, roundedUp_intCast]
  by_cases hpos : 0 < phase
  · have hhalves : 0 ≤ halves := by
      have hq : (0 : ℚ) ≤ halves := by linarith
      exact_mod_cast hq
    have hnat : ((halves.toNat : ℤ) : ℚ) = halves := by rw [Int.toNat_of_nonneg hhalves]
    rw [if_pos hpos, ← hnat]
    rfl
  · have hhalves : halves ≤ 0 := by
      have hq : (halves : ℚ) ≤ 0 := by linarith
      exact_mod_cast hq
    rw [if_neg hpos, Int.toNat_of_nonpos hhalves, Nat.cast_zero, zero_sub]

end Phase

-- The left edge of a brick in a drawn row. The bricks stand side by side, and the row as a whole is
-- moved by what its phase leaves over.
def Drawing.brickX (f : Frame) (t : Timing ℚ) (place : ℕ) : ℚ :=
  phaseOffset t.phase * f.cell.width + (place * f.cell.width : ℕ)

namespace Timing

-- A timing that draws every half cycle over a whole number of cells and shifts a lane by whole
-- half cycles, its numbers read exactly.
structure OnGrid (t : Timing ℚ) (f : Frame) (cells : ℕ) (halves : ℤ) : Prop where
  period_le : t.period ≤ 100
  hscale_le : f.hscale ≤ Diagram.maxHscale
  cells_pos : 0 < cells
  period_mul : t.period * f.hscale = cells
  two_mul_phase : 2 * t.phase = halves

namespace OnGrid

variable {t : Timing ℚ} {f : Frame} {cells : ℕ} {halves : ℤ}

theorem cells_le (h : t.OnGrid f cells halves) : cells ≤ Stretch.limit + 1 := by
  have hscale : (f.hscale : ℚ) ≤ 100 := by exact_mod_cast h.hscale_le
  have hcells : (cells : ℚ) ≤ 100 * 100 := by
    calc
      (cells : ℚ) = t.period * f.hscale := h.period_mul.symm
      _ ≤ 100 * f.hscale := mul_le_mul_of_nonneg_right h.period_le (by positivity)
      _ ≤ 100 * 100 := by gcongr
  norm_num at hcells
  exact_mod_cast hcells

-- Of the cells of a half cycle, one is the brick's own.
theorem stretch_of (h : t.OnGrid f cells halves) :
    Stretch.of (t.stretch f.hscale) = .extra (cells - 1) := by
  have hpos : (1 : ℚ) ≤ cells := by exact_mod_cast h.cells_pos
  have hle := h.cells_le
  have hmul := h.period_mul
  have hstretch : t.stretch f.hscale = ((cells - 1 : ℤ) : ℚ) := by
    norm_num [stretch, Scalar.ofNat, hmul]
  have hhalf : Scalar.same (t.stretch f.hscale) (-0.5) = false := by
    rw [hstretch]
    push_cast
    apply beq_eq_false_iff_ne.mpr
    intro heq
    norm_num at heq
    linarith
  have hcells : (cells - 1 : ℤ).toNat = cells - 1 := by omega
  rw [Stretch.of, hhalf, hstretch, upTo_intCast, hcells, if_neg (by decide),
    Nat.min_eq_right (by omega)]

-- Without a phase, each half cycle of a wave has as many bricks as it takes cells.
theorem length_bricks (h : t.OnGrid f cells halves) {wave : String}
    (hwave : Wave.KeepsMarkers wave) :
    (Wave.bricks wave (t.stretch f.hscale) (0 : ℚ)).length =
      Wave.span false wave.toList * cells := by
  have hpos := h.cells_pos
  rw [Wave.bricks_zero, h.stretch_of, Wave.length_unshifted_extra hwave]
  congr 1
  omega

-- A brick that is not taken off is drawn where its number of cells and the phase put it.
theorem exists_brickX (h : t.OnGrid f cells halves) (wave : String) {n : ℕ}
    (hn : 2 * t.phase ≤ n) :
    ∃ place, (Wave.bricks wave (t.stretch f.hscale) t.phase).drop place =
        (Wave.bricks wave (t.stretch f.hscale) (0 : ℚ)).drop n ∧
      Drawing.brickX f t place = f.cell.width * (n - 2 * t.phase) := by
  have hle : halves.toNat ≤ n := by
    rw [h.two_mul_phase] at hn
    have hint : halves ≤ (n : ℤ) := by exact_mod_cast hn
    omega
  refine ⟨n - halves.toNat, ?_, ?_⟩
  · rw [Wave.bricks_zero, Wave.bricks, Wave.shifted_of_two_mul h.two_mul_phase, List.drop_drop,
      Nat.add_sub_of_le hle]
  · rw [Drawing.brickX, Drawing.phaseOffset_of_two_mul h.two_mul_phase, h.two_mul_phase]
    push_cast [Nat.cast_sub hle]
    ring

end OnGrid

end Timing

end TimingDiagram
