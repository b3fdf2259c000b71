import TimingDiagram.Proofs.Wave.Events
import TimingDiagram.Proofs.Wave.EventBricks
import TimingDiagram.Proofs.Wave.Shift

namespace TimingDiagram

namespace Event

-- The number of bricks of an event. What its symbol is matters only where a clock is to keep its
-- edges in half a cell.
def brickCount (stretch : Stretch) (e : Event) : Nat :=
  match stretch with
  | .extra cells => (if e.short then e.cycles else 2 * e.cycles) * (1 + cells)
  | .half =>
    if e.symbol.isClock then if e.short then e.cycles else 2 * e.cycles
    else if e.short then (e.cycles + 1) / 2 else e.cycles

theorem length_bricks (stretch : Stretch) (e : Event) :
    (e.bricks stretch).length = e.brickCount stretch := by
  unfold bricks brickCount
  cases stretch with
  | extra cells =>
      dsimp only
      rw [Brick.length_prolonged, length_cutBricks, halfCycles]
  | half =>
      dsimp only
      by_cases hclock : e.symbol.isClock = true
      · rw [if_pos hclock, if_pos hclock, length_cutBricks, halfCycles]
      · rw [if_neg hclock, if_neg hclock, Brick.length_alternate, length_cutBricks, halfCycles]
        split
        · rfl
        · omega

theorem brickCount_le (e : Event) (stretch : Stretch) (cells : Nat)
    (hstretch : stretch = .half ∨ stretch = .extra cells) :
    e.brickCount stretch ≤ 2 * (1 + cells) * e.cycles := by
  have hone : 2 * e.cycles ≤ 2 * (1 + cells) * e.cycles := by
    apply Nat.mul_le_mul_right
    omega
  unfold brickCount
  rcases hstretch with rfl | rfl
  · dsimp only
    split
    · split <;> omega
    · split <;> omega
  · have hhalves : (if e.short then e.cycles else 2 * e.cycles) ≤ 2 * e.cycles := by
      split <;> omega
    calc
      (if e.short then e.cycles else 2 * e.cycles) * (1 + cells)
          ≤ 2 * e.cycles * (1 + cells) := Nat.mul_le_mul_right _ hhalves
      _ = 2 * (1 + cells) * e.cycles := Nat.mul_right_comm _ _ _

end Event

namespace Wave

-- The bricks of a wave that no phase shifts.
def brickCount (wave : String) (stretch : Float) : Nat :=
  ((events wave).map (Event.brickCount
    (if stretch == -0.5 then .half else .extra (Stretch.cells stretch)))).sum

theorem length_unshifted (wave : String) (stretch : Float) :
    (unshifted wave (Stretch.of stretch)).length = brickCount wave stretch := by
  rw [unshifted, List.length_flatMap, brickCount, ← Stretch.of_eq]
  congr 1
  apply List.map_congr_left
  intro e _
  exact e.length_bricks (Stretch.of stretch)

theorem brickCount_le (wave : String) (stretch : Float) :
    brickCount wave stretch ≤ 20000 * wave.length := by
  have hcells := Stretch.cells_le_limit stretch
  have hevent : ∀ e : Event, e.brickCount
      (if stretch == -0.5 then .half else .extra (Stretch.cells stretch)) ≤ 20000 * e.cycles := by
    intro e
    refine (e.brickCount_le _ (Stretch.cells stretch) ?_).trans ?_
    · split
      · exact Or.inl rfl
      · exact Or.inr rfl
    · apply Nat.mul_le_mul_right
      unfold Stretch.limit at hcells
      omega
  calc
    brickCount wave stretch ≤ ((events wave).map fun e => 20000 * e.cycles).sum :=
      List.sum_le_sum fun e _ => hevent e
    _ = 20000 * ((events wave).map Event.cycles).sum := List.sum_map_mul_left _ _ _
    _ ≤ 20000 * wave.length := Nat.mul_le_mul_left _ (sum_cycles_le_length wave)

-- A phase takes as many bricks off the front as it has half cycles, and no more than there are.
theorem bricks_budget (wave : String) (stretch phase : Float) :
    ((bricks wave stretch phase).length : ℕ∞) =
        brickCount wave stretch - halfCyclesOff phase ∧
      bricks wave stretch phase = (bricks wave stretch 0.0).drop
        (min (halfCyclesOff phase) (brickCount wave stretch)).toNat ∧
      Stretch.cells stretch ≤ 9999 ∧
      (bricks wave stretch phase).length ≤ 20000 * wave.length := by
  have hlength : ((bricks wave stretch phase).length : ℕ∞) =
      brickCount wave stretch - halfCyclesOff phase := by
    rw [bricks, length_shifted, length_unshifted]
  refine ⟨hlength, ?_, Stretch.cells_le_limit stretch, ?_⟩
  · have hnone := shifted_of_nonpos (by decide : (0.0 : Float) ≤ 0.0)
      (unshifted wave (Stretch.of stretch))
    rw [bricks, bricks, hnone, shifted_eq_drop, length_unshifted]
  · have hle : (bricks wave stretch phase).length ≤ brickCount wave stretch := by
      have hsub := tsub_le_self (a := (brickCount wave stretch : ℕ∞)) (b := halfCyclesOff phase)
      rw [← hlength] at hsub
      exact_mod_cast hsub
    exact hle.trans (brickCount_le wave stretch)

end Wave

end TimingDiagram
