import TimingDiagram.Proofs.Wave.Events
import TimingDiagram.Proofs.Wave.Endings
import TimingDiagram.Proofs.Wave.Shift

namespace TimingDiagram

namespace Brick

def isTransition : Brick → Bool
  | .transition .. => true
  | _ => false

theorem alternate_head? (bricks : List Brick) : (alternate bricks).head? = bricks.head? := by
  match bricks with
  | [] => rfl
  | [_] => rfl
  | _ :: _ :: _ => rfl

theorem prolonged_head? (extra : Nat) (bricks : List Brick) :
    (prolonged extra bricks).head? = bricks.head? := by
  cases bricks with
  | nil => rfl
  | cons b rest => rfl

theorem alternate_tail_subset (bricks : List Brick) :
    (alternate bricks).tail ⊆ bricks.tail := by
  match bricks with
  | [] => exact List.Subset.refl _
  | [_] => exact List.Subset.refl _
  | _ :: b :: rest =>
      exact List.Subset.trans (alternate_subset rest) (List.subset_cons_self b rest)

-- What prolongs a brick is steady.
theorem mem_prolonged_tail (extra : Nat) (bricks : List Brick) (b : Brick)
    (hb : b ∈ (prolonged extra bricks).tail) : b ∈ bricks.tail ∨ b.isTransition = false := by
  have hmem : ∀ rest, b ∈ prolonged extra rest → b ∈ rest ∨ b.isTransition = false := by
    intro rest h
    obtain ⟨a, ha, h⟩ := List.mem_flatMap.mp h
    rcases List.mem_cons.mp h with rfl | h
    · exact Or.inl ha
    · rw [List.eq_of_mem_replicate h]
      exact Or.inr rfl
  cases bricks with
  | nil => exact absurd hb List.not_mem_nil
  | cons first rest =>
      rcases List.mem_append.mp hb with h | h
      · rw [List.eq_of_mem_replicate h]
        exact Or.inr rfl
      · exact hmem rest h

theorem prolonged_concat (extra : Nat) (bricks : List Brick) (b : Brick) :
    prolonged extra (bricks ++ [b]) =
      prolonged extra bricks ++ b :: List.replicate extra b.sustain := by
  simp [prolonged]

end Brick

theorem Symbol.isTransition_of_joined {before after : Symbol} {b : Brick}
    (h : Symbol.joined before after = some b) : b.isTransition = false := by
  unfold joined at h
  split at h
  · split at h <;> cases h
    rfl
  · split at h <;> cases h
    rfl
  · split at h <;> cases h
    rfl
  · split at h <;> cases h
    rfl
  · cases h

namespace Event

theorem isTransition_entry (e : Event) (edge : ClockEdge) :
    (e.entry edge).isTransition = false := by
  unfold entry
  cases e.previous with
  | none => rfl
  | some before =>
      dsimp only
      cases hj : Symbol.joined before e.symbol with
      | none => rfl
      | some b => exact Symbol.isTransition_of_joined hj

-- Only the passage into a level or a bus value is a transition.
theorem isTransition_tail_fullBricks (e : Event) (b : Brick) (hb : b ∈ e.fullBricks.tail) :
    b.isTransition = false := by
  cases hs : e.symbol with
  | clock edge =>
      have hmem := List.mem_of_mem_tail hb
      simp only [fullBricks, hs, List.mem_flatten, List.mem_replicate] at hmem
      obtain ⟨pair, ⟨-, rfl⟩, hpair⟩ := hmem
      rcases List.mem_cons.mp hpair with rfl | hpair
      · exact isTransition_entry e edge
      · rw [List.mem_singleton.mp hpair]
        rfl
  | level l | data d | sharp edge =>
      simp only [fullBricks, hs, List.tail_cons] at hb
      rw [List.eq_of_mem_replicate hb]
      rfl

theorem head_fullBricks (e : Event) {source target : Level} {ds dt : Option DataIndex}
    (h : e.fullBricks.head? = some (.transition source target ds dt)) :
    ∃ before, e.previous = some before ∧ before.trailingLevel = source ∧ before.dataIndex = ds := by
  have hpassage : e.passage = .transition source target ds dt →
      ∃ before, e.previous = some before ∧ before.trailingLevel = source ∧
        before.dataIndex = ds := by
    intro hp
    unfold passage at hp
    cases hprev : e.previous with
    | none =>
        rw [hprev] at hp
        cases hp
    | some before =>
        rw [hprev] at hp
        injection hp with hsource _ hds _
        exact ⟨before, rfl, hsource, hds⟩
  have hentry : ∀ edge, e.entry edge ≠ .transition source target ds dt := by
    intro edge he
    have hn := isTransition_entry e edge
    rw [he] at hn
    cases hn
  cases hs : e.symbol with
  | level l | data d =>
      simp only [fullBricks, hs, List.head?_cons, Option.some_inj] at h
      exact hpassage h
  | clock edge =>
      simp only [fullBricks, hs, cycles, List.replicate_succ, List.flatten_cons, List.cons_append,
        List.head?_cons, Option.some_inj] at h
      exact absurd h (hentry edge)
  | sharp edge =>
      simp only [fullBricks, hs, List.head?_cons, Option.some_inj] at h
      cases hprev : e.previous with
      | none =>
          rw [hprev] at h
          cases h
      | some before =>
          rw [hprev] at h
          exact absurd h (hentry edge)

theorem head_cutBricks (e : Event) : e.cutBricks.head? = e.fullBricks.head? := by
  unfold cutBricks
  split
  · rw [List.head?_take, if_neg (by simp [cycles])]
  · rfl

theorem head_bricks (stretch : Stretch) (e : Event) :
    (e.bricks stretch).head? = e.fullBricks.head? := by
  unfold bricks
  cases stretch with
  | half =>
      dsimp only
      split
      · exact head_cutBricks e
      · rw [Brick.alternate_head?, head_cutBricks]
  | extra n => rw [Brick.prolonged_head?, head_cutBricks]

theorem bricks_ne_nil (stretch : Stretch) (e : Event) : e.bricks stretch ≠ [] := by
  intro h
  have hhead := head_bricks stretch e
  rw [h, List.head?_nil, eq_comm, List.head?_eq_none_iff] at hhead
  have hlength := length_fullBricks e
  rw [hhead, List.length_nil, cycles] at hlength
  omega

theorem isTransition_tail_bricks (stretch : Stretch) (e : Event) (b : Brick)
    (hb : b ∈ (e.bricks stretch).tail) : b.isTransition = false := by
  have hcut : ∀ b ∈ e.cutBricks.tail, b.isTransition = false := by
    intro b hb
    apply isTransition_tail_fullBricks e b
    unfold cutBricks at hb
    split at hb
    · rw [← List.drop_one, List.drop_take, List.drop_one] at hb
      exact List.mem_of_mem_take hb
    · exact hb
  unfold bricks at hb
  cases stretch with
  | half =>
      dsimp only at hb
      split at hb
      · exact hcut b hb
      · exact hcut b (Brick.alternate_tail_subset _ hb)
  | extra n =>
      rcases Brick.mem_prolonged_tail n _ b hb with h | h
      · exact hcut b h
      · exact h

theorem ending_last_cutBricks (e : Event) (b : Brick) (hb : e.cutBricks.getLast? = some b) :
    b.ending = e.symbol.meaning (e.halfCycles - 1) := by
  have h := congrArg List.getLast? (map_ending_cutBricks e)
  rw [List.getLast?_map, List.getLast?_map, hb, List.getLast?_range,
    if_neg (halfCycles_pos e).ne'] at h
  exact Option.some.inj h

-- However long its cells are, an event ends on what its last half cycle means.
theorem ending_last_bricks (stretch : Stretch) (e : Event) (b : Brick)
    (hb : (e.bricks stretch).getLast? = some b) :
    b.ending = e.symbol.meaning (e.halfCycles - 1) := by
  unfold bricks at hb
  cases stretch with
  | half =>
      dsimp only at hb
      split at hb
      · exact ending_last_cutBricks e b hb
      · rename_i hclock
        have hmeaning := e.symbol.meaning_of_not_clock ((Bool.not_eq_true _).mp hclock)
        have hmem := Brick.alternate_subset _ (List.mem_of_getLast? hb)
        have hending := List.mem_map_of_mem (f := Brick.ending) hmem
        rw [map_ending_cutBricks] at hending
        obtain ⟨i, -, hi⟩ := List.mem_map.mp hending
        rw [← hi, hmeaning, hmeaning]
  | extra n =>
      obtain ⟨front, last, hcut⟩ := (List.eq_nil_or_concat' e.cutBricks).resolve_left
        (cutBricks_ne_nil e)
      have hlast := ending_last_cutBricks e last (by rw [hcut, List.getLast?_concat])
      dsimp only at hb
      rw [hcut, Brick.prolonged_concat, List.getLast?_append_cons] at hb
      rw [← hlast]
      rcases List.mem_cons.mp (List.mem_of_getLast? hb) with rfl | hb
      · rfl
      · rw [List.eq_of_mem_replicate hb, Brick.ending_sustain]

-- A clock that stops in the middle of its last cycle.
def StopsHalfway (e : Event) : Prop :=
  e.symbol.isClock = true ∧ e.short = true ∧ Odd e.cycles

end Event

-- The two levels of a clock.
def Level.Opposite (a b : Level) : Prop :=
  a = .low ∧ b = .high ∨ a = .high ∧ b = .low

-- How the last brick of an event meets a transition that comes from the given level and bus value.
structure Event.Meets (e : Event) (b : Brick) (source : Level) (data : Option DataIndex) :
    Prop where
  data : b.endData = data
  level : ¬ e.StopsHalfway → b.endLevel = source
  opposite : e.StopsHalfway → Level.Opposite b.endLevel source

namespace Event

theorem meaning_half_of_clock (edge : ClockEdge) (half : Nat) :
    (Odd half → (Symbol.clock edge).meaning half = (edge.clockEndsAt, none)) ∧
      (Even half → Level.Opposite ((Symbol.clock edge).meaning half).1 edge.clockEndsAt ∧
        ((Symbol.clock edge).meaning half).2 = none) := by
  constructor
  · intro h
    have hodd : half % 2 = 1 := Nat.odd_iff.mp h
    cases edge <;> simp [Symbol.meaning, hodd, ClockEdge.clockEndsAt, ClockEdge.rises]
  · intro h
    have heven : half % 2 = 0 := Nat.even_iff.mp h
    cases edge <;>
      simp [Symbol.meaning, heven, ClockEdge.clockEndsAt, ClockEdge.rises, Level.Opposite]

theorem odd_last_half_iff (e : Event) (hclock : e.symbol.isClock = true) :
    Odd (e.halfCycles - 1) ↔ ¬ e.StopsHalfway := by
  have hpos : 0 < e.cycles := Nat.succ_pos _
  unfold halfCycles StopsHalfway
  rw [Nat.odd_iff, Nat.odd_iff]
  by_cases hshort : e.short = true
  · rw [if_pos hshort]
    constructor
    · rintro hodd ⟨-, -, hcycles⟩
      omega
    · intro hn
      by_contra heven
      exact hn ⟨hclock, hshort, by omega⟩
  · rw [if_neg hshort]
    constructor
    · rintro - ⟨-, h, -⟩
      exact hshort h
    · intro _
      omega

theorem meets_last (stretch : Stretch) (e : Event) (b : Brick)
    (hb : (e.bricks stretch).getLast? = some b) :
    e.Meets b e.symbol.trailingLevel e.symbol.dataIndex := by
  have hending := ending_last_bricks stretch e b hb
  cases hs : e.symbol with
  | level l | data d | sharp edge =>
      have hn : ¬ e.StopsHalfway := by
        rintro ⟨hclock, -⟩
        rw [hs] at hclock
        cases hclock
      rw [hs, Symbol.meaning_of_not_clock _ rfl] at hending
      exact ⟨congrArg Prod.snd hending, fun _ => congrArg Prod.fst hending, fun h => absurd h hn⟩
  | clock edge =>
      rw [hs] at hending
      have hhalf := odd_last_half_iff e (by rw [hs]; rfl)
      have hmeaning := meaning_half_of_clock edge (e.halfCycles - 1)
      by_cases hstop : e.StopsHalfway
      · have heven := Nat.not_odd_iff_even.mp (mt hhalf.mp (not_not.mpr hstop))
        obtain ⟨hlevel, hdata⟩ := hmeaning.2 heven
        rw [← hending] at hlevel hdata
        exact ⟨hdata, fun h => absurd hstop h, fun _ => hlevel⟩
      · have hodd := hmeaning.1 (hhalf.mpr hstop)
        rw [← hending] at hodd
        exact ⟨congrArg Prod.snd hodd, fun _ => congrArg Prod.fst hodd, fun h => absurd h hstop⟩

end Event

namespace Wave

-- The event whose last brick stands at the given place, if one ends there.
def closedAt (stretch : Stretch) : List Event → Nat → Option Event
  | [], _ => none
  | e :: rest, place =>
    let count := (e.bricks stretch).length
    if place < count then if place + 1 = count then some e else none
    else closedAt stretch rest (place - count)

theorem head_flatMap_bricks (stretch : Stretch) (e : Event) (rest : List Event) :
    ((e :: rest).flatMap (Event.bricks stretch)).head? = e.fullBricks.head? := by
  rw [List.flatMap_cons, List.head?_append_of_ne_nil _ (Event.bricks_ne_nil stretch e),
    Event.head_bricks]

-- A transition is the first brick of its event, and the brick before it the last one of the event
-- that it goes on from.
theorem meets_of_transition (stretch : Stretch) (current : Option Symbol) (events : List Event)
    (hl : Linked current events) (place : Nat) (b : Brick) (source target : Level)
    (ds dt : Option DataIndex)
    (hb : (events.flatMap (Event.bricks stretch))[place]? = some b)
    (ht : (events.flatMap (Event.bricks stretch))[place + 1]? =
      some (.transition source target ds dt)) :
    ∃ e, closedAt stretch events place = some e ∧ e.Meets b source ds := by
  induction events generalizing current place with
  | nil => cases hb
  | cons e rest ih =>
      rw [List.flatMap_cons] at hb ht
      by_cases hplace : place < (e.bricks stretch).length
      · rw [List.getElem?_append_left hplace] at hb
        by_cases hlast : place + 1 = (e.bricks stretch).length
        -- The event ends here, and the transition opens the next one.
        · have hb' : (e.bricks stretch).getLast? = some b := by
            rw [List.getLast?_eq_getElem?, ← hlast]
            exact hb
          rw [List.getElem?_append_right hlast.ge, hlast, Nat.sub_self,
            ← List.head?_eq_getElem?] at ht
          refine ⟨e, by simp [closedAt, hplace, hlast], ?_⟩
          cases rest with
          | nil => cases ht
          | cons next after =>
              rw [head_flatMap_bricks] at ht
              obtain ⟨before, hprevious, rfl, rfl⟩ := next.head_fullBricks ht
              have hbefore : before = e.symbol := by
                rcases hl.2.1 with h | h
                · rw [hprevious] at h
                  cases h
                · rw [hprevious] at h
                  exact Option.some.inj h
              rw [hbefore]
              exact e.meets_last stretch b hb'
        -- Inside an event no brick but the first is a transition.
        · rw [List.getElem?_append_left (by omega), ← List.getElem?_tail] at ht
          have hn := e.isTransition_tail_bricks stretch _ (List.mem_of_getElem? ht)
          cases hn
      · rw [List.getElem?_append_right (by omega)] at hb ht
        rw [Nat.sub_add_comm (by omega)] at ht
        obtain ⟨found, hfound, hmeets⟩ := ih (some e.symbol) hl.2 _ hb ht
        refine ⟨found, ?_, hmeets⟩
        simp only [closedAt, hplace, if_false]
        exact hfound

theorem head_unshifted (wave : String) (stretch : Stretch) (source target : Level)
    (ds dt : Option DataIndex) :
    (unshifted wave stretch).head? ≠ some (.transition source target ds dt) := by
  intro h
  have hl := linked_events wave
  unfold unshifted at h
  cases he : events wave with
  | nil =>
      rw [he] at h
      cases h
  | cons e rest =>
      rw [he, head_flatMap_bricks] at h
      rw [he] at hl
      obtain ⟨before, hprevious, -⟩ := e.head_fullBricks h
      rw [hl.1.elim id id] at hprevious
      cases hprevious

-- Transitions start where the brick before them ends, but for a clock that stops halfway.
theorem bricks_joined (wave : String) (stretch phase : Float) :
    (∀ (place : Nat) (b : Brick) (source target : Level) (ds dt : Option DataIndex),
      (bricks wave stretch phase)[place]? = some b →
      (bricks wave stretch phase)[place + 1]? = some (.transition source target ds dt) →
      ∃ e, closedAt (Stretch.of stretch) (events wave) ((halfCyclesOff phase).toNat + place) =
          some e ∧ e.Meets b source ds) ∧
    (phase ≤ 0.0 → ∀ (source target : Level) (ds dt : Option DataIndex),
      (bricks wave stretch phase).head? ≠ some (.transition source target ds dt)) := by
  constructor
  · intro place b source target ds dt hb ht
    unfold bricks at hb ht
    cases hk : halfCyclesOff phase with
    | top =>
        rw [shifted_of_top hk] at hb
        cases hb
    | coe n =>
        rw [shifted_of_natCast hk, List.getElem?_drop] at hb ht
        exact meets_of_transition (Stretch.of stretch) none (events wave) (linked_events wave)
          (n + place) b source target ds dt hb ht
  · intro hphase source target ds dt
    rw [bricks, shifted_of_nonpos hphase]
    exact head_unshifted wave (Stretch.of stretch) source target ds dt

-- The first joint goes on from a whole number of cycles, the second from a cycle cut in half.
theorem bricks_joined_clocks :
    (∃ e, closedAt (Stretch.of (0.0 : Float)) (events "<p.0p>1") 1 = some e ∧
      e.Meets (.edge .falling) .low none) ∧
    (∃ e, closedAt (Stretch.of (0.0 : Float)) (events "<p.0p>1") 3 = some e ∧
      e.Meets (.edge .rising) .low none) ∧
    (bricks "<p.0p>1" (0.0 : Float) (0.0 : Float)).head? ≠
      some (.transition .low .high none none) := by
  have h := bricks_joined "<p.0p>1" 0.0 0.0
  rw [halfCyclesOff_of_nonpos (by decide)] at h
  refine ⟨?_, ?_, h.2 (by decide) .low .high none none⟩
  · exact h.1 1 (.edge .falling) .low .low none none rfl rfl
  · exact h.1 3 (.edge .rising) .low .high none none rfl rfl

end Wave

end TimingDiagram
