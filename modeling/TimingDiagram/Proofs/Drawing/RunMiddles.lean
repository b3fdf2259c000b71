import TimingDiagram.Proofs.Drawing.Runs
import TimingDiagram.Proofs.Wave.OneValue

namespace TimingDiagram.Drawing

def Run.length (r : Run) : ℕ := r.stop - r.first

-- The place in the middle of a run; of two, the one on the left.
def Run.center (r : Run) : ℕ := r.first + (r.length - 1) / 2

namespace Run.IsMaximal

variable {bricks : List Brick} {r : Run}

theorem center_lt (h : r.IsMaximal bricks) : r.center < r.stop := by
  have hnonempty := h.nonempty
  rw [Run.center, Run.length]
  omega

theorem middle_eq (h : r.IsMaximal bricks) : r.middle = 2 * r.first + (r.length - 1) := by
  have hnonempty := h.nonempty
  rw [Run.middle, Drawing.middle, Run.length]
  omega

theorem middle_div_two (h : r.IsMaximal bricks) : r.middle / 2 = r.center := by
  rw [h.middle_eq, Nat.mul_add_div Nat.two_pos, Run.center]

theorem cast_middle (h : r.IsMaximal bricks) :
    (r.middle : ℚ) / 2 = r.first + ((r.length : ℚ) - 1) / 2 := by
  have hpos : 1 ≤ r.length := Nat.sub_pos_of_lt h.nonempty
  rw [h.middle_eq]
  push_cast [Nat.cast_sub hpos]
  ring

-- Where neighbours agree, one bus value goes through the whole run.
theorem exists_value (h : r.IsMaximal bricks) (hchain : bricks.IsChain Brick.Agrees) :
    ∃ d : DataIndex, ∀ place, r.first ≤ place → place < r.stop →
      bricks[place]? = some (.steady .value (some d)) := by
  have hvalue : ∀ place, r.first ≤ place → place < r.stop →
      ∃ d, bricks[place]? = some (.steady .value (some d)) := by
    intro place hfirst hstop
    obtain ⟨b, hb, hsome⟩ := (Option.any_eq_true _ _).mp (h.values place hfirst hstop)
    obtain ⟨d, hd⟩ := Option.isSome_iff_exists.mp hsome
    exact ⟨d, by rw [hb, Brick.eq_steady_of_dataValue hd]⟩
  obtain ⟨d, hd⟩ := hvalue r.first le_rfl h.nonempty
  refine ⟨d, fun place hfirst => ?_⟩
  induction place, hfirst using Nat.le_induction with
  | base => exact fun _ => hd
  | succ place hfirst ih =>
      intro hstop
      obtain ⟨d', hnext⟩ := hvalue (place + 1) (by omega) hstop
      have hhere := ih (by omega)
      obtain ⟨hlt, hget⟩ := List.getElem?_eq_some_iff.mp hnext
      obtain ⟨hlt', hget'⟩ := List.getElem?_eq_some_iff.mp hhere
      have hagree := List.isChain_iff_getElem.mp hchain place hlt
      rw [hget, hget'] at hagree
      rw [hnext, hagree d rfl d' rfl]

end Run.IsMaximal

-- The runs that begin behind a given place and their middles, from left to right.
structure Listed (bricks : List Brick) (least : ℕ) (runs : List Run) : Prop where
  mem_iff : ∀ r, r ∈ runs ↔ r.IsMaximal bricks ∧ least ≤ r.first
  ordered : runs.Pairwise fun r s => r.stop < s.first

namespace Listed

variable {bricks : List Brick} {place : ℕ} {runs : List Run}

-- No run begins behind the last brick.
theorem nil (h : bricks.length ≤ place) : Listed bricks place [] := by
  refine ⟨fun r => ⟨fun hr => absurd hr List.not_mem_nil, ?_⟩, List.Pairwise.nil⟩
  rintro ⟨hr, hfirst⟩
  exact absurd rfl (hr.first_ne (holdsValue_of_length_le (h.trans hfirst)))

-- No run begins at a place without a value.
theorem skip (h : Listed bricks (place + 1) runs) (hvalue : holdsValue bricks place = false) :
    Listed bricks place runs := by
  refine ⟨fun r => (h.mem_iff r).trans (and_congr_right fun hr => ?_), h.ordered⟩
  have hne := hr.first_ne hvalue
  omega

-- The run that is closed at a place comes first.
theorem cons {run : ℕ} (h : Listed bricks place runs) (hbehind : Behind bricks place run)
    (hrun : 0 < run) (hvalue : holdsValue bricks place = false) :
    Listed bricks (place - run) (⟨place - run, place⟩ :: runs) := by
  constructor
  · intro r
    rw [List.mem_cons, h.mem_iff]
    constructor
    · rintro (rfl | ⟨hr, hfirst⟩)
      · exact ⟨hbehind.isMaximal hrun hvalue, le_rfl⟩
      · exact ⟨hr, by omega⟩
    · rintro ⟨hr, hfirst⟩
      by_cases hlt : r.first < place
      · exact Or.inl (hbehind.eq_of_first_lt hvalue hr hfirst hlt).2
      · exact Or.inr ⟨hr, by omega⟩
  · refine List.pairwise_cons.mpr ⟨fun s hs => ?_, h.ordered⟩
    obtain ⟨hs, hfirst⟩ := (h.mem_iff s).mp hs
    exact lt_of_le_of_ne hfirst (hs.first_ne hvalue).symm

end Listed

theorem Behind.middle_eq {bricks : List Brick} {place run : ℕ} (h : Behind bricks place run) :
    middle place run = Run.middle ⟨place - run, place⟩ := by
  rw [Run.middle, Nat.sub_sub_self h.le]

-- From a place on, the middles are those of the runs that are not closed before it.
theorem exists_runs {bricks rest : List Brick} {place run : ℕ} (hrest : bricks.drop place = rest)
    (h : Behind bricks place run) :
    ∃ runs, Listed bricks (place - run) runs ∧
      runMiddlesFrom place run rest = runs.map Run.middle := by
  induction rest generalizing place run with
  | nil =>
      have hlength := List.drop_eq_nil_iff.mp hrest
      have hnone : Listed bricks place [] := Listed.nil hlength
      rw [runMiddlesFrom]
      by_cases hrun : run = 0
      · subst hrun
        exact ⟨[], hnone, if_pos rfl⟩
      · refine ⟨_, hnone.cons h (by omega) (holdsValue_of_length_le hlength), ?_⟩
        rw [if_neg hrun, h.middle_eq, List.map_singleton]
  | cons b rest ih =>
      have hb : bricks[place]? = some b := by
        rw [← List.head?_drop, hrest, List.head?_cons]
      have hvalue : holdsValue bricks place = b.dataValue.isSome := by
        rw [holdsValue, hb, Option.any_some]
      have hnext : bricks.drop (place + 1) = rest := by
        rw [← List.tail_drop, hrest, List.tail_cons]
      rw [runMiddlesFrom]
      cases hsome : b.dataValue.isSome with
      | true =>
          rw [hsome] at hvalue
          obtain ⟨runs, hruns, hmiddles⟩ := ih hnext (h.value hvalue)
          rw [Nat.add_sub_add_right] at hruns
          exact ⟨runs, hruns, by rw [if_pos rfl, hmiddles]⟩
      | false =>
          rw [hsome] at hvalue
          obtain ⟨runs, hruns, hmiddles⟩ := ih hnext (Behind.noValue hvalue)
          have hhere : Listed bricks place runs := hruns.skip hvalue
          rw [if_neg Bool.false_ne_true]
          by_cases hrun : run = 0
          · subst hrun
            exact ⟨runs, hhere, by rw [if_pos rfl, hmiddles]⟩
          · refine ⟨_, hhere.cons h (by omega) hvalue, ?_⟩
            rw [if_neg hrun, hmiddles, h.middle_eq, List.map_cons]

theorem exists_maximal_runs (bricks : List Brick) :
    ∃ runs : List Run, (∀ r, r ∈ runs ↔ r.IsMaximal bricks) ∧
      runs.Pairwise (fun r s => r.stop < s.first) ∧
      runMiddles bricks = runs.map Run.middle := by
  have hstart : bricks.drop 0 = bricks := List.drop_zero
  obtain ⟨runs, hruns, hmiddles⟩ := exists_runs hstart Behind.zero
  refine ⟨runs, fun r => ?_, hruns.ordered, hmiddles⟩
  rw [hruns.mem_iff, Nat.zero_sub]
  exact and_iff_left (Nat.zero_le _)

-- Each maximal run of bus values has one middle, in the order of the runs: the first place and
-- half of the places behind it. What is left without the half is a place of that run; and in a
-- lane that place shows the value that the whole run shows.
theorem runMiddles_on_runs :
    (∀ bricks : List Brick, ∃ runs : List Run,
      (∀ r, r ∈ runs ↔ r.IsMaximal bricks) ∧
      runs.Pairwise (fun r s => r.stop < s.first) ∧
      (runMiddles bricks).map (fun halves : ℕ => (halves : ℚ) / 2) =
        runs.map (fun r => (r.first : ℚ) + ((r.length : ℚ) - 1) / 2) ∧
      (runMiddles bricks).Pairwise (· < ·) ∧
      (runMiddles bricks).map (· / 2) = runs.map Run.center ∧
      ∀ r ∈ runs, r.first ≤ r.center ∧ r.center < r.stop) ∧
    ∀ (wave : String) (stretch phase : Float) (r : Run),
      r.IsMaximal (Wave.bricks wave stretch phase) →
      ∃ d : DataIndex, ∀ place, r.first ≤ place → place < r.stop →
        (Wave.bricks wave stretch phase)[place]? = some (.steady .value (some d)) := by
  constructor
  · intro bricks
    obtain ⟨runs, hmem, hordered, hmiddles⟩ := exists_maximal_runs bricks
    have hmaximal : ∀ r ∈ runs, r.IsMaximal bricks := fun r hr => (hmem r).mp hr
    refine ⟨runs, hmem, hordered, ?_, pairwise_runMiddlesFrom 0 0 bricks le_rfl, ?_, ?_⟩
    · rw [hmiddles, List.map_map]
      exact List.map_congr_left fun r hr => (hmaximal r hr).cast_middle
    · rw [hmiddles, List.map_map]
      exact List.map_congr_left fun r hr => (hmaximal r hr).middle_div_two
    · exact fun r hr => ⟨Nat.le_add_right _ _, (hmaximal r hr).center_lt⟩
  · intro wave stretch phase r hr
    exact hr.exists_value (Wave.isChain_agrees_bricks wave stretch phase)

-- A bus value that two brackets draw again is one run of an even number of bricks.
theorem runMiddles_on_runs_redrawn :
    let lane := Wave.bricks "=<.|>.3" (0.0 : Float) (0.75 : Float)
    Run.IsMaximal lane ⟨0, 4⟩ ∧ runMiddles lane = [3, 10] ∧
      ∃ d : DataIndex, ∀ place, 0 ≤ place → place < 4 →
        lane[place]? = some (.steady .value (some d)) := by
  intro lane
  let three : DataIndex := ⟨3, by decide, by decide⟩
  let held (index : DataIndex) : Brick := .steady .value (some index)
  have hlane : lane =
      [held .default, held .default, held .default, held .default,
        .transition .value .value (some .default) (some three), held three] := rfl
  have hrun : Run.IsMaximal lane ⟨0, 4⟩ := by
    rw [hlane]
    decide
  have hmiddles : runMiddles lane = [3, 10] := by
    rw [hlane]
    decide
  exact ⟨hrun, hmiddles, runMiddles_on_runs.2 "=<.|>.3" 0.0 0.75 ⟨0, 4⟩ hrun⟩

end TimingDiagram.Drawing
