import Mathlib.Data.Set.Card
import Mathlib.Tactic
import TimingDiagram.Drawing.Row

namespace TimingDiagram.Drawing

-- The places from `first` on that lie before `stop`.
structure Run where
  first : ℕ
  stop : ℕ
deriving DecidableEq, Repr

-- Whether a steady bus value stands at a place.
def holdsValue (bricks : List Brick) (place : ℕ) : Bool :=
  bricks[place]?.any fun b => b.dataValue.isSome

namespace Run

-- A run of bus values that can be made no longer.
structure IsMaximal (bricks : List Brick) (r : Run) : Prop where
  nonempty : r.first < r.stop
  values : ∀ place, r.first ≤ place → place < r.stop → holdsValue bricks place = true
  starts : ∀ place, place + 1 = r.first → holdsValue bricks place = false
  stops : holdsValue bricks r.stop = false

instance (bricks : List Brick) (r : Run) : Decidable (r.IsMaximal bricks) :=
  decidable_of_iff
    (r.first < r.stop ∧ (∀ place < r.stop, r.first ≤ place → holdsValue bricks place = true) ∧
      (∀ place < r.first, place + 1 = r.first → holdsValue bricks place = false) ∧
      holdsValue bricks r.stop = false)
    ⟨fun ⟨hnonempty, hvalues, hstarts, hstops⟩ =>
      ⟨hnonempty, fun p hfirst hstop => hvalues p hstop hfirst,
        fun p hp => hstarts p (by omega) hp, hstops⟩,
    fun h => ⟨h.nonempty, fun p hstop hfirst => h.values p hfirst hstop,
      fun p _ hp => h.starts p hp, h.stops⟩⟩

-- What is left of a run, at its new places, when bricks are taken off the front.
def cut (count : ℕ) (r : Run) : Run := ⟨r.first - count, r.stop - count⟩

def middle (r : Run) : ℕ := Drawing.middle r.stop (r.stop - r.first)

end Run

-- The number of maximal runs that lie in the first `count` bricks as a whole.
noncomputable def wholeRuns (bricks : List Brick) (count : ℕ) : ℕ :=
  {r : Run | r.IsMaximal bricks ∧ r.stop ≤ count}.ncard

-- Whether a run ends right before a place.
def endsAt (bricks : List Brick) (place : ℕ) : Bool :=
  decide (0 < place) && holdsValue bricks (place - 1) && !holdsValue bricks place

theorem holdsValue_drop (bricks : List Brick) (count place : ℕ) :
    holdsValue (bricks.drop count) place = holdsValue bricks (count + place) := by
  rw [holdsValue, holdsValue, List.getElem?_drop]

theorem holdsValue_of_length_le {bricks : List Brick} {place : ℕ} (h : bricks.length ≤ place) :
    holdsValue bricks place = false := by
  rw [holdsValue, List.getElem?_eq_none h, Option.any_none]

theorem endsAt_eq_true {bricks : List Brick} {place : ℕ} :
    endsAt bricks place = true ↔
      0 < place ∧ holdsValue bricks (place - 1) = true ∧ holdsValue bricks place = false := by
  simp [endsAt, and_assoc]

theorem endsAt_eq_false_of_value {bricks : List Brick} {place : ℕ}
    (h : holdsValue bricks place = true) : endsAt bricks place = false := by
  simp [endsAt, h]

namespace Run.IsMaximal

variable {bricks : List Brick} {r s : Run}

theorem first_ne (h : r.IsMaximal bricks) {place : ℕ} (hvalue : holdsValue bricks place = false) :
    r.first ≠ place := by
  rintro rfl
  rw [h.values r.first le_rfl h.nonempty] at hvalue
  cases hvalue

theorem endsAt_stop (h : r.IsMaximal bricks) : endsAt bricks r.stop = true := by
  have hpos := h.nonempty
  exact endsAt_eq_true.mpr ⟨by omega, h.values (r.stop - 1) (by omega) (by omega), h.stops⟩

-- Two maximal runs that end at one place are the same.
theorem eq_of_stop_eq (hr : r.IsMaximal bricks) (hs : s.IsMaximal bricks) (h : r.stop = s.stop) :
    r = s := by
  have hle : ∀ {r s : Run}, r.IsMaximal bricks → s.IsMaximal bricks → r.stop = s.stop →
      r.first ≤ s.first := by
    intro r s hr hs h
    by_contra hlt
    have hvalue := hs.values (r.first - 1) (by omega) (by have := hr.nonempty; omega)
    rw [hr.starts (r.first - 1) (by omega)] at hvalue
    cases hvalue
  have hfirst : r.first = s.first := le_antisymm (hle hr hs h) (hle hs hr h.symm)
  cases r
  cases s
  cases h
  cases hfirst
  rfl

-- What is left of a run is a maximal run of what is left of the bricks.
theorem cut (hr : r.IsMaximal bricks) {count : ℕ} (hcount : count < r.stop) :
    (r.cut count).IsMaximal (bricks.drop count) := by
  have hnonempty := hr.nonempty
  constructor
  · simp only [Run.cut]
    omega
  · intro place hfirst hstop
    simp only [Run.cut] at hfirst hstop
    rw [holdsValue_drop]
    exact hr.values (count + place) (by omega) (by omega)
  · intro place hfirst
    simp only [Run.cut] at hfirst
    rw [holdsValue_drop]
    exact hr.starts (count + place) (by omega)
  · have hstop : count + (r.stop - count) = r.stop := by omega
    rw [holdsValue_drop, Run.cut, hstop]
    exact hr.stops

end Run.IsMaximal

-- The values in front of a place go back to where they start.
theorem exists_first {bricks : List Brick} {last : ℕ} (hlast : holdsValue bricks last = true) :
    ∃ first ≤ last,
      (∀ place, first ≤ place → place ≤ last → holdsValue bricks place = true) ∧
        ∀ place, place + 1 = first → holdsValue bricks place = false := by
  induction last with
  | zero =>
      refine ⟨0, le_rfl, ?_, fun place h => absurd h (by omega)⟩
      intro place _ hplace
      rwa [Nat.le_zero.mp hplace]
  | succ last ih =>
      by_cases hbefore : holdsValue bricks last = true
      · obtain ⟨first, hle, hvalues, hstarts⟩ := ih hbefore
        refine ⟨first, by omega, ?_, hstarts⟩
        intro place hfirst hplace
        rcases Nat.lt_or_eq_of_le hplace with hlt | rfl
        · exact hvalues place hfirst (by omega)
        · exact hlast
      · refine ⟨last + 1, le_rfl, ?_, ?_⟩
        · intro place hfirst hplace
          rwa [le_antisymm hplace hfirst]
        · intro place hplace
          rw [Nat.add_right_cancel hplace]
          simpa using hbefore

-- Every place where a run ends ends a maximal one.
theorem exists_isMaximal {bricks : List Brick} {place : ℕ} (h : endsAt bricks place = true) :
    ∃ r : Run, r.IsMaximal bricks ∧ r.stop = place := by
  obtain ⟨hpos, hvalue, hstop⟩ := endsAt_eq_true.mp h
  obtain ⟨first, hle, hvalues, hstarts⟩ := exists_first hvalue
  have hnonempty : first < place := by omega
  exact ⟨⟨first, place⟩, ⟨hnonempty, fun p hfirst hp => hvalues p hfirst (Nat.le_sub_one_of_lt hp),
    hstarts, hstop⟩, rfl⟩

-- Runs are counted by the places where they end.
theorem wholeRuns_eq_count (bricks : List Brick) (count : ℕ) :
    wholeRuns bricks count = Nat.count (fun place => endsAt bricks place = true) (count + 1) := by
  have himage : Run.stop '' {r : Run | r.IsMaximal bricks ∧ r.stop ≤ count} =
      ((Finset.range (count + 1)).filter fun place => endsAt bricks place = true : Finset ℕ) := by
    ext place
    rw [Finset.mem_coe, Finset.mem_filter, Finset.mem_range, Nat.lt_succ_iff]
    constructor
    · rintro ⟨r, ⟨hr, hle⟩, rfl⟩
      exact ⟨hle, hr.endsAt_stop⟩
    · rintro ⟨hle, hends⟩
      obtain ⟨r, hr, rfl⟩ := exists_isMaximal hends
      exact ⟨r, ⟨hr, hle⟩, rfl⟩
  have hinj : Set.InjOn Run.stop {r : Run | r.IsMaximal bricks ∧ r.stop ≤ count} :=
    fun r hr s hs h => hr.1.eq_of_stop_eq hs.1 h
  rw [wholeRuns, Nat.count_eq_card_filter_range, ← Set.ncard_coe_finset, ← himage,
    hinj.ncard_image]

-- No run ends inside a run.
theorem Run.IsMaximal.wholeRuns_first {bricks : List Brick} {r : Run} (hr : r.IsMaximal bricks) :
    wholeRuns bricks r.first = Nat.count (fun place => endsAt bricks place = true) r.stop := by
  have hsplit : r.stop = r.first + 1 + (r.stop - (r.first + 1)) := by
    have := hr.nonempty
    omega
  have hnone : Nat.count (fun k => endsAt bricks (r.first + 1 + k) = true)
      (r.stop - (r.first + 1)) = 0 := by
    apply Nat.count_of_forall_not
    intro k hk
    rw [endsAt_eq_false_of_value (hr.values _ (by omega) (by omega))]
    exact Bool.false_ne_true
  rw [wholeRuns_eq_count]
  conv_rhs => rw [hsplit, Nat.count_add, hnone, Nat.add_zero]

-- Of the runs in front of a run, those are missing behind a cut that lie before it as a whole.
theorem Run.IsMaximal.wholeRuns_cut {bricks : List Brick} {r : Run} (hr : r.IsMaximal bricks)
    {count : ℕ} (hcount : count < r.stop) :
    wholeRuns bricks r.first =
      wholeRuns bricks count + wholeRuns (bricks.drop count) (r.cut count).first := by
  have hstop : r.stop = count + 1 + (r.stop - count - 1) := by omega
  have hleft : (r.cut count).stop = r.stop - count - 1 + 1 := by
    simp only [Run.cut]
    omega
  have hfront : ¬ endsAt (bricks.drop count) 0 = true := by simp [endsAt]
  have hshift : ∀ k, endsAt (bricks.drop count) (k + 1) = endsAt bricks (count + 1 + k) := by
    intro k
    rw [Bool.eq_iff_iff, endsAt_eq_true, endsAt_eq_true, holdsValue_drop, holdsValue_drop,
      Nat.add_sub_cancel, Nat.add_right_comm, Nat.add_sub_cancel, Nat.add_assoc]
    simp
  have hcut : Nat.count (fun place => endsAt (bricks.drop count) place = true)
      (r.cut count).stop =
        Nat.count (fun k => endsAt bricks (count + 1 + k) = true) (r.stop - count - 1) := by
    rw [hleft, Nat.count_succ', if_neg hfront, Nat.add_zero]
    simp only [hshift]
  rw [hr.wholeRuns_first, (hr.cut hcount).wholeRuns_first, wholeRuns_eq_count, hcut]
  conv_lhs => rw [hstop, Nat.count_add]

-- The `run` bricks in front of a place are values, and none comes before them.
structure Behind (bricks : List Brick) (place run : ℕ) : Prop where
  le : run ≤ place
  values : ∀ p, place - run ≤ p → p < place → holdsValue bricks p = true
  starts : ∀ p, p + 1 = place - run → holdsValue bricks p = false

namespace Behind

variable {bricks : List Brick} {place run : ℕ} {r : Run}

theorem zero : Behind bricks 0 0 :=
  ⟨le_rfl, fun p _ hp => absurd hp (by omega), fun p hp => absurd hp (by omega)⟩

theorem value (h : Behind bricks place run) (hvalue : holdsValue bricks place = true) :
    Behind bricks (place + 1) (run + 1) := by
  have hle := h.le
  refine ⟨by omega, ?_, fun p hp => h.starts p (by omega)⟩
  intro p hfirst hp
  rcases Nat.lt_succ_iff_lt_or_eq.mp hp with hlt | rfl
  · exact h.values p (by omega) hlt
  · exact hvalue

theorem noValue (hvalue : holdsValue bricks place = false) : Behind bricks (place + 1) 0 := by
  refine ⟨Nat.zero_le _, fun p _ hp => absurd hp (by omega), ?_⟩
  intro p hp
  rwa [show p = place by omega]

-- Where the values end, the run in front is maximal.
theorem isMaximal (h : Behind bricks place run) (hrun : 0 < run)
    (hvalue : holdsValue bricks place = false) : Run.IsMaximal bricks ⟨place - run, place⟩ :=
  ⟨by have := h.le; change place - run < place; omega, h.values, h.starts, hvalue⟩

-- A run that does not begin behind a place without a value is the one in front of it.
theorem eq_of_first_lt (h : Behind bricks place run) (hvalue : holdsValue bricks place = false)
    (hr : r.IsMaximal bricks) (hfirst : place - run ≤ r.first) (hlt : r.first < place) :
    0 < run ∧ r = ⟨place - run, place⟩ := by
  have hrun : 0 < run := by omega
  refine ⟨hrun, hr.eq_of_stop_eq (h.isMaximal hrun hvalue) ?_⟩
  have hnonempty := hr.nonempty
  by_contra hne
  rcases Nat.lt_or_gt_of_ne hne with hstop | hstop
  · have hstops := hr.stops
    rw [h.values r.stop (by omega) hstop] at hstops
    cases hstops
  · have hvalues := hr.values place (by omega) hstop
    rw [hvalue] at hvalues
    cases hvalues

theorem lt_stop (h : Behind bricks place run) (hvalue : holdsValue bricks place = true)
    (hr : r.IsMaximal bricks) (hfirst : place - run ≤ r.first) : place < r.stop := by
  have hnonempty := hr.nonempty
  have hstops := hr.stops
  by_contra hge
  rcases Nat.lt_or_eq_of_le (not_lt.mp hge) with hlt | heq
  · rw [h.values r.stop (by omega) hlt] at hstops
    cases hstops
  · rw [heq, hvalue] at hstops
    cases hstops

theorem endsAt_iff (h : Behind bricks place run) (hvalue : holdsValue bricks place = false) :
    endsAt bricks place = true ↔ 0 < run := by
  constructor
  · intro hends
    obtain ⟨hpos, hlast, -⟩ := endsAt_eq_true.mp hends
    by_contra hrun
    rw [h.starts (place - 1) (by omega)] at hlast
    cases hlast
  · intro hrun
    exact (h.isMaximal hrun hvalue).endsAt_stop

end Behind

-- One run more ends from a place on than from the next one, if one ends right there.
theorem count_endsAt_succ (bricks : List Brick) {place stop : ℕ} (h : place < stop) :
    Nat.count (fun k => endsAt bricks (place + k) = true) (stop - place) =
      Nat.count (fun k => endsAt bricks (place + 1 + k) = true) (stop - (place + 1)) +
        if endsAt bricks place = true then 1 else 0 := by
  have hstop : stop - place = stop - (place + 1) + 1 := by omega
  rw [hstop, Nat.count_succ']
  simp only [Nat.add_zero, Nat.add_comm, Nat.add_left_comm]

-- The middles are listed run by run: in front of that of a run stand as many as runs end before.
theorem runMiddlesFrom_getElem? {bricks rest : List Brick} {place run : ℕ} {r : Run}
    (hrest : bricks.drop place = rest) (h : Behind bricks place run) (hr : r.IsMaximal bricks)
    (hfirst : place - run ≤ r.first) :
    (runMiddlesFrom place run rest)[
      Nat.count (fun k => endsAt bricks (place + k) = true) (r.stop - place)]? =
        some r.middle := by
  have hnonempty := hr.nonempty
  induction rest generalizing place run with
  | nil =>
      have hlength := List.drop_eq_nil_iff.mp hrest
      have hlt : r.first < place := by
        by_contra hge
        exact hr.first_ne (holdsValue_of_length_le (by omega)) rfl
      obtain ⟨hrun, rfl⟩ :=
        h.eq_of_first_lt (holdsValue_of_length_le hlength) hr hfirst hlt
      rw [runMiddlesFrom, if_neg hrun.ne', Nat.sub_self, Nat.count_zero, List.getElem?_cons_zero,
        Run.middle, Nat.sub_sub_self h.le]
  | cons b rest ih =>
      have hb : bricks[place]? = some b := by
        rw [← List.head?_drop, hrest, List.head?_cons]
      have hvalue : holdsValue bricks place = b.dataValue.isSome := by
        rw [holdsValue, hb, Option.any_some]
      have hnext : bricks.drop (place + 1) = rest := by
        rw [← List.tail_drop, hrest, List.tail_cons]
      rw [runMiddlesFrom]
      cases hsome : b.dataValue.isSome with
      | true =>
          rw [hsome] at hvalue
          have hends : ¬ endsAt bricks place = true := by simp [endsAt_eq_false_of_value hvalue]
          rw [if_pos rfl, count_endsAt_succ bricks (h.lt_stop hvalue hr hfirst), if_neg hends,
            Nat.add_zero]
          exact ih hnext (h.value hvalue) (by omega)
      | false =>
          rw [hsome] at hvalue
          have hne := hr.first_ne hvalue
          rw [if_neg Bool.false_ne_true]
          by_cases hrun : run = 0
          · have hends : ¬ endsAt bricks place = true := by
              rw [h.endsAt_iff hvalue]
              omega
            rw [if_pos hrun, count_endsAt_succ bricks (by omega), if_neg hends, Nat.add_zero]
            exact ih hnext (Behind.noValue hvalue) (by omega)
          · rw [if_neg hrun]
            -- The run in front of this place is listed first, unless it is the one asked for.
            by_cases hlt : r.first < place
            · obtain ⟨-, rfl⟩ := h.eq_of_first_lt hvalue hr hfirst hlt
              rw [Nat.sub_self, Nat.count_zero, List.getElem?_cons_zero, Run.middle,
                Nat.sub_sub_self h.le]
            · have hends := (h.endsAt_iff hvalue).mpr (by omega)
              rw [count_endsAt_succ bricks (by omega), if_pos hends, List.getElem?_cons_succ]
              exact ih hnext (Behind.noValue hvalue) (by omega)

theorem Run.IsMaximal.middle_getElem? {bricks : List Brick} {r : Run} (hr : r.IsMaximal bricks) :
    (runMiddles bricks)[wholeRuns bricks r.first]? = some r.middle := by
  have h := runMiddlesFrom_getElem? List.drop_zero Behind.zero hr (by omega)
  simp only [Nat.zero_add, Nat.sub_zero] at h
  rw [hr.wholeRuns_first]
  exact h

-- The middle of a run lies behind the run before it.
theorem le_of_mem_runMiddlesFrom (place run : ℕ) (bricks : List Brick) (hrun : run ≤ place) :
    ∀ m ∈ runMiddlesFrom place run bricks, 2 * place - (run + 1) ≤ m := by
  induction bricks generalizing place run with
  | nil =>
      intro m hm
      rw [runMiddlesFrom] at hm
      split at hm
      · cases hm
      · rw [List.mem_singleton.mp hm, middle]
  | cons b rest ih =>
      intro m hm
      rw [runMiddlesFrom] at hm
      split at hm
      · have := ih (place + 1) (run + 1) (by omega) m hm
        omega
      · split at hm
        · have := ih (place + 1) 0 (by omega) m hm
          omega
        · rcases List.mem_cons.mp hm with rfl | hm
          · rw [middle]
          · have := ih (place + 1) 0 (by omega) m hm
            omega

theorem pairwise_runMiddlesFrom (place run : ℕ) (bricks : List Brick) (hrun : run ≤ place) :
    (runMiddlesFrom place run bricks).Pairwise (· < ·) := by
  induction bricks generalizing place run with
  | nil =>
      rw [runMiddlesFrom]
      split <;> simp
  | cons b rest ih =>
      rw [runMiddlesFrom]
      split
      · exact ih (place + 1) (run + 1) (by omega)
      · split
        · exact ih (place + 1) 0 (by omega)
        · refine List.pairwise_cons.mpr ⟨?_, ih (place + 1) 0 (by omega)⟩
          intro m hm
          have := le_of_mem_runMiddlesFrom (place + 1) 0 rest (by omega) m hm
          rw [middle]
          omega

theorem nodup_runMiddles (bricks : List Brick) : (runMiddles bricks).Nodup :=
  (pairwise_runMiddlesFrom 0 0 bricks le_rfl).imp Nat.ne_of_lt

end TimingDiagram.Drawing
