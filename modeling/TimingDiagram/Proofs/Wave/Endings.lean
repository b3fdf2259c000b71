import TimingDiagram.Proofs.Wave.EventBricks

namespace TimingDiagram

-- What a symbol says about the half cycles it stands for, counted from the point where its
-- drawing starts over: the level and the bus value. Only a clock changes on the way.
def Symbol.meaning (s : Symbol) (half : Nat) : Level × Option DataIndex :=
  match s with
  | .level l => (l, none)
  | .data d => (.value, some d)
  | .clock e => (if e.rises == (half % 2 == 0) then .high else .low, none)
  | .sharp e => (if e.rises then .high else .low, none)

theorem Symbol.meaning_of_not_clock (s : Symbol) (hs : s.isClock = false) (half : Nat) :
    s.meaning half = (s.settledLevel, s.dataIndex) := by
  cases s with
  | level l => rfl
  | data d => rfl
  | clock e => simp [isClock] at hs
  | sharp e => rfl

namespace Brick

-- The level and the bus value that a brick ends on.
def ending (b : Brick) : Level × Option DataIndex := (b.endLevel, b.endData)

@[simp] theorem ending_sustain (b : Brick) : b.sustain.ending = b.ending := rfl

theorem map_ending_prolonged (extra : Nat) (bricks : List Brick) :
    (prolonged extra bricks).map ending =
      (bricks.map ending).flatMap (List.replicate (1 + extra)) := by
  induction bricks with
  | nil => rfl
  | cons b rest ih =>
      simp only [prolonged_cons, List.cons_append, List.map_cons, List.map_append,
        List.map_replicate, ending_sustain, ih, List.flatMap_cons, Nat.add_comm 1 extra,
        List.replicate_succ]

end Brick

namespace Event

-- An edge that is left out would have ended on the level that is held in its place.
theorem ending_entry (e : Event) (edge : ClockEdge)
    (he : e.symbol = .clock edge ∨ e.symbol = .sharp edge) :
    (e.entry edge).ending = (edge.settlesAt, none) := by
  unfold entry
  cases hp : e.previous with
  | none => rfl
  | some before =>
      rcases he with he | he <;> rw [he] <;> cases before with
      | level l => rfl
      | data d => rfl
      | clock first => cases first <;> cases edge <;> rfl
      | sharp first => cases first <;> cases edge <;> rfl

theorem ending_passage (e : Event) :
    e.passage.ending = (e.symbol.settledLevel, e.symbol.dataIndex) := by
  unfold passage
  cases e.previous with
  | none => rfl
  | some before => rfl

theorem ending_fullBricks_of_not_clock (e : Event) (he : e.symbol.isClock = false) (b : Brick)
    (hb : b ∈ e.fullBricks) : b.ending = (e.symbol.settledLevel, e.symbol.dataIndex) := by
  cases hs : e.symbol with
  | clock edge => simp [hs, Symbol.isClock] at he
  | level l =>
      simp only [fullBricks, hs, List.mem_cons, List.mem_replicate] at hb
      rcases hb with rfl | ⟨-, rfl⟩
      · rw [ending_passage, hs]
      · rfl
  | data d =>
      simp only [fullBricks, hs, List.mem_cons, List.mem_replicate] at hb
      rcases hb with rfl | ⟨-, rfl⟩
      · rw [ending_passage, hs]
      · rfl
  | sharp edge =>
      simp only [fullBricks, hs, List.mem_cons, List.mem_replicate] at hb
      rcases hb with rfl | ⟨-, rfl⟩
      · cases e.previous with
        | none => rfl
        | some before => exact ending_entry e edge (Or.inr hs)
      · rfl

theorem flatten_replicate_pair {α : Type} (f : Nat → α) (hf : ∀ i, f (i + 2) = f i) (n : Nat) :
    (List.replicate n [f 0, f 1]).flatten = (List.range (2 * n)).map f := by
  have hd : ∀ k, f (2 * k) = f 0 ∧ f (2 * k + 1) = f 1 := by
    intro k
    induction k with
    | zero => exact ⟨rfl, rfl⟩
    | succ k ih => exact ⟨(hf _).trans ih.1, (hf _).trans ih.2⟩
  induction n with
  | zero => rfl
  | succ n ih =>
      rw [List.replicate_succ', List.flatten_append, ih, Nat.mul_succ, List.range_succ,
        List.range_succ]
      simp [hd n]

-- Before a short event is cut, its bricks end on what its symbol means.
theorem map_ending_fullBricks (e : Event) :
    e.fullBricks.map Brick.ending = (List.range (2 * e.cycles)).map e.symbol.meaning := by
  cases hc : e.symbol.isClock with
  | false =>
      have hm : e.symbol.meaning = fun _ => (e.symbol.settledLevel, e.symbol.dataIndex) :=
        funext (e.symbol.meaning_of_not_clock hc)
      rw [hm, List.map_const', List.length_range]
      refine List.eq_replicate_iff.mpr ⟨by rw [List.length_map, length_fullBricks], ?_⟩
      intro m hmem
      obtain ⟨b, hb, rfl⟩ := List.mem_map.mp hmem
      exact ending_fullBricks_of_not_clock e hc b hb
  | true =>
      cases hs : e.symbol with
      | level l => simp [hs, Symbol.isClock] at hc
      | data d => simp [hs, Symbol.isClock] at hc
      | sharp edge => simp [hs, Symbol.isClock] at hc
      | clock edge =>
          have hfirst : (e.entry edge).ending = (Symbol.clock edge).meaning 0 := by
            rw [ending_entry e edge (Or.inl hs)]
            cases edge <;> rfl
          have hsecond : (Brick.edge edge.inverse).ending = (Symbol.clock edge).meaning 1 := by
            cases edge <;> rfl
          simp only [fullBricks, hs, List.map_flatten, List.map_replicate, List.map_cons,
            List.map_nil, hfirst, hsecond]
          exact flatten_replicate_pair _ (fun i => by simp [Symbol.meaning]) e.cycles

theorem map_ending_cutBricks (e : Event) :
    e.cutBricks.map Brick.ending = (List.range e.halfCycles).map e.symbol.meaning := by
  unfold cutBricks halfCycles
  split
  · rw [List.map_take, map_ending_fullBricks, ← List.map_take, List.take_range,
      Nat.min_eq_left (by omega)]
  · exact map_ending_fullBricks e

theorem map_ending_bricks_extra (e : Event) (extra : Nat) :
    (e.bricks (.extra extra)).map Brick.ending =
      ((List.range e.halfCycles).map e.symbol.meaning).flatMap (List.replicate (1 + extra)) := by
  rw [bricks, Brick.map_ending_prolonged, map_ending_cutBricks]

end Event

end TimingDiagram
