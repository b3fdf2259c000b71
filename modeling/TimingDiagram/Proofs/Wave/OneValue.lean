import TimingDiagram.Proofs.Wave.Joints

namespace TimingDiagram

namespace Brick

-- Neighbours that both show a bus value show the same one.
def Agrees (a b : Brick) : Prop := ∀ d ∈ a.dataValue, ∀ d' ∈ b.dataValue, d = d'

theorem eq_steady_of_dataValue {b : Brick} {d : DataIndex} (h : b.dataValue = some d) :
    b = .steady .value (some d) := by
  unfold dataValue at h
  split at h
  · rw [h]
  · cases h

theorem mem_prolonged {extra : ℕ} {bricks : List Brick} {b : Brick}
    (hb : b ∈ prolonged extra bricks) : ∃ a ∈ bricks, b = a ∨ b = a.sustain := by
  obtain ⟨a, ha, hb⟩ := List.mem_flatMap.mp hb
  rcases List.mem_cons.mp hb with rfl | hb
  · exact ⟨b, ha, Or.inl rfl⟩
  · exact ⟨a, ha, Or.inr (List.eq_of_mem_replicate hb)⟩

end Brick

theorem Symbol.meaning_snd (s : Symbol) (half : ℕ) : (s.meaning half).2 = s.dataIndex := by
  cases s <;> rfl

namespace Event

variable {e next : Event} {b : Brick}

theorem endData_of_mem_cutBricks (hb : b ∈ e.cutBricks) : b.endData = e.symbol.dataIndex := by
  have hending := List.mem_map_of_mem (f := Brick.ending) hb
  rw [map_ending_cutBricks] at hending
  obtain ⟨half, -, hhalf⟩ := List.mem_map.mp hending
  rw [← e.symbol.meaning_snd half, hhalf]
  rfl

-- All bricks of an event end on the data index of its symbol.
theorem endData_of_mem_bricks {stretch : Stretch} (hb : b ∈ e.bricks stretch) :
    b.endData = e.symbol.dataIndex := by
  unfold bricks at hb
  cases stretch with
  | half =>
      dsimp only at hb
      split at hb
      · exact endData_of_mem_cutBricks hb
      · exact endData_of_mem_cutBricks (Brick.alternate_subset _ hb)
  | extra n =>
      obtain ⟨a, ha, hab⟩ := Brick.mem_prolonged hb
      rw [← endData_of_mem_cutBricks ha]
      rcases hab with rfl | rfl <;> rfl

theorem dataIndex_of_dataValue {stretch : Stretch} (hb : b ∈ e.bricks stretch) {d : DataIndex}
    (hd : d ∈ b.dataValue) : e.symbol.dataIndex = some d := by
  rw [← endData_of_mem_bricks hb, Brick.eq_steady_of_dataValue hd]
  rfl

-- The first brick of a clock or a sharp level ends on no bus value.
theorem dataValue_entry (edge : ClockEdge)
    (he : e.symbol = .clock edge ∨ e.symbol = .sharp edge) : (e.entry edge).dataValue = none := by
  cases hvalue : (e.entry edge).dataValue with
  | none => rfl
  | some d =>
      have hending := ending_entry e edge he
      rw [Brick.eq_steady_of_dataValue hvalue] at hending
      cases congrArg Prod.snd hending

-- Where an edge is drawn, no bus value shows yet.
theorem dataValue_head_bricks {stretch : Stretch} {before : Symbol}
    (hprevious : e.previous = some before) (hb : b ∈ (e.bricks stretch).head?) :
    b.dataValue = none := by
  rw [head_bricks, Option.mem_def] at hb
  cases hs : e.symbol with
  | level l | data d =>
      simp only [fullBricks, hs, List.head?_cons, Option.some_inj] at hb
      rw [← hb, passage, hprevious]
      rfl
  | clock edge =>
      simp only [fullBricks, hs, cycles, List.replicate_succ, List.flatten_cons, List.cons_append,
        List.head?_cons, Option.some_inj] at hb
      rw [← hb]
      exact dataValue_entry edge (Or.inl hs)
  | sharp edge =>
      simp only [fullBricks, hs, hprevious, List.head?_cons, Option.some_inj] at hb
      rw [← hb]
      exact dataValue_entry edge (Or.inr hs)

-- An event goes on from the symbol before it or draws that symbol again.
def Follows (e next : Event) : Prop :=
  next.previous = some e.symbol ∨ next.previous = none ∧ next.symbol = e.symbol

theorem agrees_of_follows {stretch : Stretch} (h : e.Follows next) {a : Brick}
    (ha : a ∈ (e.bricks stretch).getLast?) (hb : b ∈ (next.bricks stretch).head?) :
    a.Agrees b := by
  intro d hd d' hd'
  rcases h with hprevious | ⟨-, hsymbol⟩
  · rw [dataValue_head_bricks hprevious hb] at hd'
    cases hd'
  · have hleft := dataIndex_of_dataValue (List.mem_of_getLast? ha) hd
    have hright := dataIndex_of_dataValue (List.mem_of_head? hb) hd'
    rw [hsymbol, hleft, Option.some_inj] at hright
    exact hright

theorem isChain_agrees_bricks (stretch : Stretch) (e : Event) :
    (e.bricks stretch).IsChain Brick.Agrees := by
  refine List.Pairwise.isChain (List.pairwise_of_forall_mem_list ?_)
  intro a ha b hb d hd d' hd'
  have hleft := dataIndex_of_dataValue ha hd
  rw [dataIndex_of_dataValue hb hd', Option.some_inj] at hleft
  exact hleft.symm

end Event

namespace Wave

theorem isChain_follows_eventsFrom (current : Option Symbol) (short : Bool) (cs : List Char) :
    (eventsFrom current short cs).IsChain Event.Follows ∧
      ∀ e ∈ (eventsFrom current short cs).head?, ∀ s ∈ current,
        e.previous = some s ∨ e.previous = none ∧ e.symbol = s := by
  induction cs using chars_induction generalizing current short with
  | nil => simp
  | marker c rest hc ih =>
      rw [eventsFrom_marker current short c rest hc]
      exact ih current short
  | bracket c rest hc ih =>
      have hrest := ih current (c == '<')
      rw [eventsFrom_bracket current short c rest hc]
      cases current with
      | none => simpa using hrest.1
      | some s =>
          cases leadingMarkers rest with
          | zero => exact hrest
          | succ n =>
              rw [redrawn_succ, List.singleton_append, List.isChain_cons]
              refine ⟨⟨fun e he => hrest.2 e he s rfl, hrest.1⟩, ?_⟩
              rintro e ⟨⟩ s' ⟨⟩
              exact Or.inr ⟨rfl, rfl⟩
  | symbol c rest hc ih =>
      have hrest := ih (some (Symbol.ofChar c)) short
      rw [eventsFrom_symbol current short c rest hc, List.isChain_cons]
      refine ⟨⟨fun e he => hrest.2 e he (Symbol.ofChar c) rfl, hrest.1⟩, ?_⟩
      rintro e ⟨⟩ s hs
      exact Or.inl hs

theorem isChain_agrees_unshifted (wave : String) (stretch : Stretch) :
    (unshifted wave stretch).IsChain Brick.Agrees := by
  have hnil : [] ∉ (events wave).map (Event.bricks stretch) := by
    rintro hmem
    obtain ⟨e, -, he⟩ := List.mem_map.mp hmem
    exact e.bricks_ne_nil stretch he
  have hfollows := (isChain_follows_eventsFrom none false (openingSymbol wave.toList)).1
  rw [unshifted, List.flatMap_def, List.isChain_flatten hnil, List.forall_mem_map, List.isChain_map]
  refine ⟨fun e _ => e.isChain_agrees_bricks stretch, hfollows.imp ?_⟩
  intro e next h a ha b hb
  exact Event.agrees_of_follows h ha hb

-- Bus values that stand side by side in a lane are one value.
theorem isChain_agrees_bricks (wave : String) (stretch phase : Float) :
    (bricks wave stretch phase).IsChain Brick.Agrees :=
  (isChain_agrees_unshifted wave (Stretch.of stretch)).drop _

end Wave

end TimingDiagram
