import TimingDiagram.Proofs.Wave.Events
import TimingDiagram.Proofs.Wave.EventBricks
import TimingDiagram.Proofs.Wave.Shift

namespace TimingDiagram

-- A data index belongs to the level of bus values, and to no other level.
def Level.Carries (l : Level) (data : Option DataIndex) : Prop := data.isSome ↔ l = .value

theorem Level.code_injective : Function.Injective Level.code := by
  intro l l' h
  cases l <;> cases l' <;> simp [code] at h ⊢

namespace DataIndex

theorem toList_name (d : DataIndex) : d.name.toList = ['-', d.val.digitChar] := by
  have hdigit : d.val < 10 := Nat.lt_succ_of_le d.le_nine
  rw [name, String.toList_append, Nat.toString_eq_repr, Nat.toList_repr,
    Nat.toDigits_of_lt_base hdigit]
  rfl

theorem digitChar_inj {m n : ℕ} (hm : m < 10) (hn : n < 10) (h : m.digitChar = n.digitChar) :
    m = n := by
  have hdigits : ∀ m < 10, ∀ n < 10, Nat.digitChar m = Nat.digitChar n → m = n := by decide
  exact hdigits m hm n hn h

theorem name_append_inj {d d' : DataIndex} {rest rest' : List Char}
    (h : d.name.toList ++ rest = d'.name.toList ++ rest') : d = d' ∧ rest = rest' := by
  rw [toList_name, toList_name] at h
  injection h with _ h
  injection h with hdigit hrest
  have hval := digitChar_inj (Nat.lt_succ_of_le d.le_nine) (Nat.lt_succ_of_le d'.le_nine) hdigit
  obtain ⟨val, _, _⟩ := d
  subst hval
  exact ⟨rfl, hrest⟩

end DataIndex

namespace Brick

-- Every level of a brick carries what belongs to it.
def WellFormed : Brick → Prop
  | .edge _ => True
  | .steady l d => l.Carries d
  | .transition source target ds dt => source.Carries ds ∧ target.Carries dt

-- Once the level is known, so is whether its data index comes next.
theorem dataName_append_inj {l : Level} {d d' : Option DataIndex} {rest rest' : List Char}
    (hd : l.Carries d) (hd' : l.Carries d')
    (h : (dataName d).toList ++ rest = (dataName d').toList ++ rest') : d = d' ∧ rest = rest' := by
  have hsome : d.isSome ↔ d'.isSome := hd.trans hd'.symm
  cases d with
  | none =>
      cases d' with
      | none => exact ⟨rfl, h⟩
      | some i' => simp at hsome
  | some i =>
      cases d' with
      | none => simp at hsome
      | some i' =>
          obtain ⟨rfl, hrest⟩ := DataIndex.name_append_inj h
          exact ⟨rfl, hrest⟩

theorem toList_name_steady (l : Level) (d : Option DataIndex) :
    (Brick.steady l d).name.toList = l.code :: l.code :: l.code :: (dataName d).toList := by
  simp [name]

theorem toList_name_transition (source target : Level) (ds dt : Option DataIndex) :
    (Brick.transition source target ds dt).name.toList =
      source.code :: 'm' :: target.code :: ((dataName ds).toList ++ (dataName dt).toList) := by
  simp [name]

theorem name_edge_ne_steady (e : ClockEdge) (l : Level) (d : Option DataIndex) :
    (Brick.edge e).name ≠ (Brick.steady l d).name := by
  intro h
  have hchars := congrArg String.toList h
  rw [toList_name_steady] at hchars
  cases e <;> cases l <;> simp [name, ClockEdge.name, Level.code] at hchars

theorem name_edge_ne_transition (e : ClockEdge) (source target : Level)
    (ds dt : Option DataIndex) :
    (Brick.edge e).name ≠ (Brick.transition source target ds dt).name := by
  intro h
  have hchars := congrArg String.toList h
  rw [toList_name_transition] at hchars
  cases e <;> simp [name, ClockEdge.name] at hchars

theorem name_steady_ne_transition (l source target : Level) (d ds dt : Option DataIndex) :
    (Brick.steady l d).name ≠ (Brick.transition source target ds dt).name := by
  intro h
  have hchars := congrArg String.toList h
  rw [toList_name_steady, toList_name_transition] at hchars
  injection hchars with _ hchars
  injection hchars with hm _
  cases l <;> simp [Level.code] at hm

-- The second letter of a name tells the kind of the brick, the others its levels.
theorem name_inj {a b : Brick} (ha : a.WellFormed) (hb : b.WellFormed) (h : a.name = b.name) :
    a = b := by
  cases a with
  | edge e =>
      cases b with
      | edge e' => cases e <;> cases e' <;> simp [name, ClockEdge.name] at h ⊢
      | steady l d => exact absurd h (name_edge_ne_steady e l d)
      | transition source target ds dt =>
          exact absurd h (name_edge_ne_transition e source target ds dt)
  | steady l d =>
      cases b with
      | edge e => exact absurd h.symm (name_edge_ne_steady e l d)
      | steady l' d' =>
          have hchars := congrArg String.toList h
          rw [toList_name_steady, toList_name_steady] at hchars
          injection hchars with hlevel hchars
          injection hchars with _ hchars
          injection hchars with _ hdata
          have hl := Level.code_injective hlevel
          subst hl
          rw [← List.append_nil (dataName d).toList, ← List.append_nil (dataName d').toList] at hdata
          rw [(dataName_append_inj ha hb hdata).1]
      | transition source target ds dt =>
          exact absurd h (name_steady_ne_transition l source target d ds dt)
  | transition source target ds dt =>
      cases b with
      | edge e => exact absurd h.symm (name_edge_ne_transition e source target ds dt)
      | steady l d => exact absurd h.symm (name_steady_ne_transition l source target d ds dt)
      | transition source' target' ds' dt' =>
          have hchars := congrArg String.toList h
          rw [toList_name_transition, toList_name_transition] at hchars
          injection hchars with hsource hchars
          injection hchars with _ hchars
          injection hchars with htarget hdata
          have hs := Level.code_injective hsource
          have ht := Level.code_injective htarget
          subst hs ht
          obtain ⟨rfl, hlast⟩ := dataName_append_inj ha.1 hb.1 hdata
          rw [← List.append_nil (dataName dt).toList, ← List.append_nil (dataName dt').toList]
            at hlast
          rw [(dataName_append_inj ha.2 hb.2 hlast).1]

theorem eq_of_map_name_eq {bricks others : List Brick} (hbricks : ∀ b ∈ bricks, b.WellFormed)
    (hothers : ∀ b ∈ others, b.WellFormed) (h : bricks.map name = others.map name) :
    bricks = others := by
  induction bricks generalizing others with
  | nil => exact (List.map_eq_nil_iff.mp h.symm).symm
  | cons b rest ih =>
      cases others with
      | nil => cases h
      | cons c more =>
          rw [List.map_cons, List.map_cons, List.cons_eq_cons] at h
          obtain ⟨hb, hrest⟩ := List.forall_mem_cons.mp hbricks
          obtain ⟨hc, hmore⟩ := List.forall_mem_cons.mp hothers
          rw [name_inj hb hc h.1, ih hrest hmore h.2]

theorem wellFormed_sustain {b : Brick} (hb : b.WellFormed) : b.sustain.WellFormed := by
  cases b with
  | edge e => cases e <;> simp [sustain, WellFormed, Level.Carries, endLevel, endData,
      ClockEdge.settlesAt, ClockEdge.rises]
  | steady l d => exact hb
  | transition source target ds dt => exact hb.2

theorem wellFormed_prolonged {extra : ℕ} {bricks : List Brick}
    (h : ∀ b ∈ bricks, b.WellFormed) : ∀ b ∈ prolonged extra bricks, b.WellFormed := by
  intro b hb
  obtain ⟨first, hfirst, hb⟩ := List.mem_flatMap.mp hb
  rcases List.mem_cons.mp hb with rfl | hb
  · exact h _ hfirst
  · rw [List.eq_of_mem_replicate hb]
    exact wellFormed_sustain (h _ hfirst)

end Brick

namespace Symbol

-- The level that a symbol settles on carries the data index of the symbol.
def WellFormed (s : Symbol) : Prop := s.settledLevel.Carries s.dataIndex

theorem wellFormed_ofChar (c : Char) : (ofChar c).WellFormed := by
  unfold WellFormed Level.Carries ofChar
  split
  case h_15 c =>
      unfold ofDigit
      split <;> simp [settledLevel, dataIndex]
  all_goals simp [settledLevel, dataIndex, ClockEdge.settlesAt, ClockEdge.rises]

theorem WellFormed.trailingLevel {s : Symbol} (h : s.WellFormed) :
    s.trailingLevel.Carries s.dataIndex := by
  cases s with
  | clock e => cases e <;> simp [Level.Carries, Symbol.trailingLevel, dataIndex,
      ClockEdge.clockEndsAt, ClockEdge.rises]
  | level l | data d | sharp e => exact h

theorem wellFormed_joined {before after : Symbol} {b : Brick} (h : joined before after = some b) :
    b.WellFormed := by
  have hhigh : (Brick.steady .high none).WellFormed := by simp [Brick.WellFormed, Level.Carries]
  have hlow : (Brick.steady .low none).WellFormed := by simp [Brick.WellFormed, Level.Carries]
  unfold joined at h
  split at h
  · split at h <;> cases h
    exact hhigh
  · split at h <;> cases h
    exact hlow
  · split at h <;> cases h
    exact hhigh
  · split at h <;> cases h
    exact hlow
  · cases h

end Symbol

namespace Event

-- The symbols that an event knows of are those that a text can hold.
structure WellFormed (e : Event) : Prop where
  symbol : e.symbol.WellFormed
  previous : ∀ s ∈ e.previous, s.WellFormed

variable {e : Event}

theorem wellFormed_entry (e : Event) (edge : ClockEdge) : (e.entry edge).WellFormed := by
  unfold entry
  cases e.previous with
  | none => trivial
  | some before =>
      dsimp only
      cases hj : Symbol.joined before e.symbol with
      | none => trivial
      | some b => exact Symbol.wellFormed_joined hj

theorem WellFormed.passage (h : e.WellFormed) : e.passage.WellFormed := by
  unfold Event.passage
  cases hp : e.previous with
  | none => exact h.symbol
  | some before => exact ⟨(h.previous before hp).trailingLevel, h.symbol⟩

theorem WellFormed.fullBricks (h : e.WellFormed) : ∀ b ∈ e.fullBricks, b.WellFormed := by
  intro b hb
  have hsteady : e.symbol.steady.WellFormed := h.symbol
  cases hs : e.symbol with
  | clock edge =>
      simp only [Event.fullBricks, hs, List.mem_flatten, List.mem_replicate] at hb
      obtain ⟨pair, ⟨-, rfl⟩, hpair⟩ := hb
      rcases List.mem_cons.mp hpair with rfl | hpair
      · exact wellFormed_entry e edge
      · rw [List.mem_singleton.mp hpair]
        trivial
  | sharp edge =>
      rw [hs] at hsteady
      simp only [Event.fullBricks, hs, List.mem_cons, List.mem_replicate] at hb
      rcases hb with rfl | ⟨-, rfl⟩
      · cases e.previous with
        | none => exact hsteady
        | some before => exact wellFormed_entry e edge
      · exact hsteady
  | level l | data d =>
      rw [hs] at hsteady
      simp only [Event.fullBricks, hs, List.mem_cons, List.mem_replicate] at hb
      rcases hb with rfl | ⟨-, rfl⟩
      · exact h.passage
      · exact hsteady

theorem WellFormed.cutBricks (h : e.WellFormed) : ∀ b ∈ e.cutBricks, b.WellFormed := by
  intro b hb
  unfold Event.cutBricks at hb
  split at hb
  · exact h.fullBricks b (List.mem_of_mem_take hb)
  · exact h.fullBricks b hb

theorem WellFormed.bricks (h : e.WellFormed) (stretch : Stretch) :
    ∀ b ∈ e.bricks stretch, b.WellFormed := by
  intro b hb
  unfold Event.bricks at hb
  cases stretch with
  | half =>
      dsimp only at hb
      split at hb
      · exact h.cutBricks b hb
      · exact h.cutBricks b (Brick.alternate_subset _ hb)
  | extra n => exact Brick.wellFormed_prolonged h.cutBricks b hb

end Event

namespace Wave

theorem wellFormed_events (wave : String) : ∀ e ∈ events wave, e.WellFormed := by
  intro e he
  have hx : Symbol.WellFormed (.level .unknown) := Symbol.wellFormed_ofChar 'x'
  obtain ⟨hsymbol, hprevious⟩ := symbols_events wave hx
    (fun c _ _ => Symbol.wellFormed_ofChar c) e he
  exact ⟨hsymbol, hprevious⟩

theorem wellFormed_bricks (wave : String) (stretch phase : Float) :
    ∀ b ∈ bricks wave stretch phase, b.WellFormed := by
  intro b hb
  obtain ⟨e, he, hb⟩ := List.mem_flatMap.mp (List.mem_of_mem_drop hb)
  exact (wellFormed_events wave e he).bricks (Stretch.of stretch) b hb

-- The glyphs of a lane name its bricks without a doubt.
theorem bricks_named :
    (∀ (wave : String) (stretch phase : Float), ∀ b ∈ bricks wave stretch phase, b.WellFormed) ∧
    ∀ (wave wave' : String) (stretch phase stretch' phase' : Float),
      (bricks wave stretch phase).map Brick.name =
          (bricks wave' stretch' phase').map Brick.name →
        bricks wave stretch phase = bricks wave' stretch' phase' := by
  refine ⟨wellFormed_bricks, ?_⟩
  intro wave wave' stretch phase stretch' phase' h
  exact Brick.eq_of_map_name_eq (wellFormed_bricks wave stretch phase)
    (wellFormed_bricks wave' stretch' phase') h

-- Two spellings of one passage from a bus value into another.
theorem bricks_named_alike :
    (bricks "=3" (0.0 : Float) (0.75 : Float)).map Brick.name =
        (bricks "2>3" (0.0 : Float) (1.0 : Float)).map Brick.name ∧
      bricks "=3" (0.0 : Float) (0.75 : Float) = bricks "2>3" (0.0 : Float) (1.0 : Float) := by
  let three : DataIndex := ⟨3, by decide, by decide⟩
  let passage : List Brick :=
    [.transition .value .value (some .default) (some three), .steady .value (some three)]
  have hleft : bricks "=3" (0.0 : Float) (0.75 : Float) = passage := rfl
  have hright : bricks "2>3" (0.0 : Float) (1.0 : Float) = passage := rfl
  have hnames : (bricks "=3" (0.0 : Float) (0.75 : Float)).map Brick.name =
      (bricks "2>3" (0.0 : Float) (1.0 : Float)).map Brick.name := by
    rw [hleft, hright]
  exact ⟨hnames, bricks_named.2 "=3" "2>3" 0.0 0.75 0.0 1.0 hnames⟩

end Wave

end TimingDiagram
