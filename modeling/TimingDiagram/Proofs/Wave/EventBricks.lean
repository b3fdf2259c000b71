import Mathlib
import TimingDiagram.Wave.Bricks

namespace TimingDiagram

namespace Brick

@[simp] theorem prolonged_nil (extra : Nat) : prolonged extra [] = [] := rfl

@[simp] theorem prolonged_cons (extra : Nat) (b : Brick) (rest : List Brick) :
    prolonged extra (b :: rest) =
      b :: List.replicate extra b.sustain ++ prolonged extra rest := rfl

theorem length_prolonged (extra : Nat) (bricks : List Brick) :
    (prolonged extra bricks).length = bricks.length * (1 + extra) := by
  induction bricks with
  | nil => simp
  | cons b rest ih =>
      simp only [prolonged_cons, List.cons_append, List.length_cons, List.length_append,
        List.length_replicate, ih, Nat.add_mul, Nat.one_mul]
      omega

theorem length_alternate : ∀ bricks : List Brick,
    (alternate bricks).length = (bricks.length + 1) / 2
  | [] => rfl
  | [_] => by simp [alternate]
  | a :: b :: rest => by
      simp only [alternate, List.length_cons, length_alternate rest]
      omega

theorem alternate_subset : ∀ bricks : List Brick, alternate bricks ⊆ bricks
  | [] => List.Subset.refl _
  | [_] => List.Subset.refl _
  | a :: b :: rest => by
      simp only [alternate]
      exact List.cons_subset_cons a
        (List.Subset.trans (alternate_subset rest) (List.subset_cons_self b rest))

theorem alternate_append : ∀ bricks more : List Brick,
    alternate bricks <+: alternate (bricks ++ more)
  | [], _ => List.nil_prefix
  | [_], [] => List.prefix_rfl
  | [a], b :: more => (List.prefix_cons_inj a).mpr List.nil_prefix
  | a :: b :: rest, more => by
      simp only [List.cons_append, alternate]
      exact (List.prefix_cons_inj a).mpr (alternate_append rest more)

-- Both ways of changing the length of a cell read from left to right.
theorem prefix_alternate {bricks longer : List Brick} (h : bricks <+: longer) :
    alternate bricks <+: alternate longer := by
  obtain ⟨more, rfl⟩ := h
  exact alternate_append bricks more

theorem prefix_prolonged (extra : Nat) {bricks longer : List Brick} (h : bricks <+: longer) :
    prolonged extra bricks <+: prolonged extra longer :=
  h.flatMap _

end Brick

namespace Event

-- The half cycles that an event lasts.
def halfCycles (e : Event) : Nat := if e.short then e.cycles else 2 * e.cycles

-- The same event with more markers behind it.
def extended (e : Event) (more : Nat) : Event := { e with repeats := e.repeats + more }

@[simp] theorem entry_extended (e : Event) (more : Nat) (edge : ClockEdge) :
    (e.extended more).entry edge = e.entry edge := rfl

@[simp] theorem passage_extended (e : Event) (more : Nat) :
    (e.extended more).passage = e.passage := rfl

theorem cycles_extended (e : Event) (more : Nat) :
    (e.extended more).cycles = e.cycles + more := by
  simp only [cycles, extended]
  omega

theorem length_fullBricks (e : Event) : e.fullBricks.length = 2 * e.cycles := by
  cases hs : e.symbol with
  | clock edge =>
      simp only [fullBricks, hs, List.length_flatten, List.map_replicate, List.length_cons,
        List.length_nil, List.sum_replicate_nat]
      omega
  | level l =>
      simp only [fullBricks, hs, List.length_cons, List.length_replicate, cycles]
      omega
  | data d =>
      simp only [fullBricks, hs, List.length_cons, List.length_replicate, cycles]
      omega
  | sharp edge =>
      simp only [fullBricks, hs, List.length_cons, List.length_replicate, cycles]
      omega

theorem length_cutBricks (e : Event) : e.cutBricks.length = e.halfCycles := by
  unfold cutBricks halfCycles
  split
  · rw [List.length_take, length_fullBricks]
    omega
  · exact length_fullBricks e

theorem fullBricks_extended (e : Event) (more : Nat) :
    e.fullBricks <+: (e.extended more).fullBricks := by
  have hr : 2 * (e.extended more).repeats + 1 = (2 * e.repeats + 1) + 2 * more := by
    simp only [extended]
    omega
  have hs : (e.extended more).symbol = e.symbol := rfl
  have hp : (e.extended more).previous = e.previous := rfl
  unfold fullBricks
  rw [hs]
  cases e.symbol with
  | clock edge =>
      simp only [cycles_extended, entry_extended, List.replicate_add, List.flatten_append]
      exact List.prefix_append _ _
  | level l =>
      simp only [hr, passage_extended, List.replicate_add _ (2 * more)]
      exact (List.prefix_cons_inj _).mpr (List.prefix_append _ _)
  | data d =>
      simp only [hr, passage_extended, List.replicate_add _ (2 * more)]
      exact (List.prefix_cons_inj _).mpr (List.prefix_append _ _)
  | sharp edge =>
      simp only [hr, hp, entry_extended, List.replicate_add _ (2 * more)]
      exact (List.prefix_cons_inj _).mpr (List.prefix_append _ _)

theorem cutBricks_extended (e : Event) (more : Nat) :
    e.cutBricks <+: (e.extended more).cutBricks := by
  have hf := fullBricks_extended e more
  have hs : (e.extended more).short = e.short := rfl
  unfold cutBricks
  rw [hs, cycles_extended]
  split
  · exact (hf.take e.cycles).trans (List.take_prefix_take_left (Nat.le_add_right _ _))
  · exact hf

-- More markers only add bricks at the end of an event.
theorem bricks_extended (stretch : Stretch) (e : Event) (more : Nat) :
    e.bricks stretch <+: (e.extended more).bricks stretch := by
  have hc := cutBricks_extended e more
  have hs : (e.extended more).symbol = e.symbol := rfl
  unfold bricks
  cases stretch with
  | half =>
      simp only [hs]
      split
      · exact hc
      · exact Brick.prefix_alternate hc
  | extra n => exact Brick.prefix_prolonged n hc

theorem halfCycles_pos (e : Event) : 0 < e.halfCycles := by
  unfold halfCycles cycles
  split <;> omega

theorem cutBricks_ne_nil (e : Event) : e.cutBricks ≠ [] := by
  have hp := halfCycles_pos e
  rw [← length_cutBricks] at hp
  exact List.ne_nil_of_length_pos hp

end Event

end TimingDiagram
