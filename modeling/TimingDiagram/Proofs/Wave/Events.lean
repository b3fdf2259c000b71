import Mathlib
import TimingDiagram.Wave.Event

namespace TimingDiagram.Wave

-- A character that sets the current symbol.
def isSymbol (c : Char) : Bool := !isMarker c && !isBracket c

theorem isMarker_eq_false_of_isBracket (c : Char) (hc : isBracket c) : isMarker c = false := by
  simp only [isBracket, Bool.or_eq_true, beq_iff_eq] at hc
  rcases hc with rfl | rfl <;> rfl

theorem isBracket_eq_false_of_isMarker (c : Char) (hc : isMarker c) : isBracket c = false := by
  simp only [isMarker, Bool.or_eq_true, beq_iff_eq] at hc
  rcases hc with rfl | rfl <;> rfl

theorem isMarker_eq_false_of_isSymbol (c : Char) (hc : isSymbol c) : isMarker c = false := by
  simp only [isSymbol, Bool.and_eq_true, Bool.not_eq_true'] at hc
  exact hc.1

theorem isBracket_eq_false_of_isSymbol (c : Char) (hc : isSymbol c) : isBracket c = false := by
  simp only [isSymbol, Bool.and_eq_true, Bool.not_eq_true'] at hc
  exact hc.2

-- The three kinds of characters, as an induction along a wave.
@[elab_as_elim]
theorem chars_induction {motive : List Char → Prop} (nil : motive [])
    (marker : ∀ c rest, isMarker c → motive rest → motive (c :: rest))
    (bracket : ∀ c rest, isBracket c → motive rest → motive (c :: rest))
    (symbol : ∀ c rest, isSymbol c → motive rest → motive (c :: rest))
    (cs : List Char) : motive cs := by
  induction cs with
  | nil => exact nil
  | cons c rest ih =>
      by_cases hm : isMarker c
      · exact marker c rest hm ih
      · by_cases hb : isBracket c
        · exact bracket c rest hb ih
        · exact symbol c rest (by simp [isSymbol, hm, hb]) ih

@[simp] theorem leadingMarkers_nil : leadingMarkers [] = 0 := rfl

theorem leadingMarkers_marker (c : Char) (rest : List Char) (hc : isMarker c) :
    leadingMarkers (c :: rest) = leadingMarkers rest + 1 := by
  simp [leadingMarkers, hc]

theorem leadingMarkers_bracket (c : Char) (rest : List Char) (hc : isBracket c) :
    leadingMarkers (c :: rest) = 0 := by
  simp [leadingMarkers, isMarker_eq_false_of_isBracket c hc]

theorem leadingMarkers_symbol (c : Char) (rest : List Char) (hc : isSymbol c) :
    leadingMarkers (c :: rest) = 0 := by
  simp [leadingMarkers, isMarker_eq_false_of_isSymbol c hc]

theorem head_isMarker_iff (cs : List Char) :
    cs.head?.any isMarker = true ↔ leadingMarkers cs ≠ 0 := by
  cases cs with
  | nil => simp
  | cons c rest => by_cases hc : isMarker c <;> simp [leadingMarkers, hc]

theorem leadingMarkers_le_append (cs ds : List Char) :
    leadingMarkers cs ≤ leadingMarkers (cs ++ ds) := by
  induction cs using chars_induction with
  | nil => exact Nat.zero_le _
  | marker c rest hc ih =>
      rw [List.cons_append, leadingMarkers_marker c _ hc, leadingMarkers_marker c _ hc]
      omega
  | bracket c rest hc ih => simp [leadingMarkers_bracket c _ hc]
  | symbol c rest hc ih => simp [leadingMarkers_symbol c _ hc]

-- Only markers at the very end of a text can be joined by those of the text behind it.
theorem leadingMarkers_append (cs ds : List Char) :
    leadingMarkers (cs ++ ds) =
      leadingMarkers cs + if leadingMarkers cs = cs.length then leadingMarkers ds else 0 := by
  induction cs using chars_induction with
  | nil => simp
  | marker c rest hc ih =>
      simp only [List.cons_append, leadingMarkers_marker c _ hc, ih, List.length_cons,
        Nat.add_right_cancel_iff]
      omega
  | bracket c rest hc ih => simp [leadingMarkers_bracket c _ hc]
  | symbol c rest hc ih => simp [leadingMarkers_symbol c _ hc]

-- The event of a bracket with the given number of markers behind it, if there is one.
def redrawn (current : Option Symbol) (short : Bool) : Nat → List Event
  | 0 => []
  | n + 1 => (current.map fun s => ⟨none, s, n, short⟩).toList

@[simp] theorem redrawn_zero (current : Option Symbol) (short : Bool) :
    redrawn current short 0 = [] := rfl

@[simp] theorem redrawn_none (short : Bool) (n : Nat) : redrawn none short n = [] := by
  cases n <;> rfl

@[simp] theorem redrawn_succ (s : Symbol) (short : Bool) (n : Nat) :
    redrawn (some s) short (n + 1) = [⟨none, s, n, short⟩] := rfl

@[simp] theorem eventsFrom_nil (current : Option Symbol) (short : Bool) :
    eventsFrom current short [] = [] := rfl

theorem eventsFrom_marker (current : Option Symbol) (short : Bool) (c : Char) (rest : List Char)
    (hc : isMarker c) : eventsFrom current short (c :: rest) = eventsFrom current short rest := by
  simp [eventsFrom, hc]

theorem eventsFrom_bracket (current : Option Symbol) (short : Bool) (c : Char) (rest : List Char)
    (hc : isBracket c) :
    eventsFrom current short (c :: rest) =
      redrawn current (c == '<') (leadingMarkers rest) ++ eventsFrom current (c == '<') rest := by
  simp only [eventsFrom, isMarker_eq_false_of_isBracket c hc, hc, ite_true]
  cases current with
  | none => simp
  | some s =>
      cases leadingMarkers rest with
      | zero => simp
      | succ n => simp

theorem eventsFrom_symbol (current : Option Symbol) (short : Bool) (c : Char) (rest : List Char)
    (hc : isSymbol c) :
    eventsFrom current short (c :: rest) =
      ⟨current, Symbol.ofChar c, leadingMarkers rest, short⟩ ::
        eventsFrom (some (Symbol.ofChar c)) short rest := by
  simp [eventsFrom, isMarker_eq_false_of_isSymbol c hc, isBracket_eq_false_of_isSymbol c hc]

-- A text that is all markers holds no event of its own.
theorem eventsFrom_markers (current : Option Symbol) (short : Bool) (cs : List Char)
    (hcs : leadingMarkers cs = cs.length) : eventsFrom current short cs = [] := by
  induction cs using chars_induction with
  | nil => rfl
  | marker c rest hc ih =>
      rw [leadingMarkers_marker c rest hc, List.length_cons] at hcs
      rw [eventsFrom_marker current short c rest hc]
      exact ih (Nat.add_right_cancel hcs)
  | bracket c rest hc ih => simp [leadingMarkers_bracket c rest hc] at hcs
  | symbol c rest hc ih => simp [leadingMarkers_symbol c rest hc] at hcs

theorem openingSymbol_append (cs ds : List Char) (hcs : cs ≠ []) :
    openingSymbol (cs ++ ds) = openingSymbol cs ++ ds := by
  cases cs with
  | nil => exact absurd rfl hcs
  | cons c rest => rfl

@[simp] theorem length_openingSymbol (cs : List Char) :
    (openingSymbol cs).length = cs.length := by
  cases cs with
  | nil => rfl
  | cons c rest => rfl

-- The first character of an opened wave is no marker.
@[simp] theorem leadingMarkers_openingSymbol (cs : List Char) :
    leadingMarkers (openingSymbol cs) = 0 := by
  cases cs with
  | nil => rfl
  | cons c rest =>
      by_cases hc : isMarker c
      · simp only [openingSymbol, hc, ite_true]
        rfl
      · simp [openingSymbol, hc, leadingMarkers]

theorem eq_x_or_mem_of_mem_openingSymbol (cs : List Char) (c : Char)
    (hc : c ∈ openingSymbol cs) : c = 'x' ∨ c ∈ cs := by
  cases cs with
  | nil => exact Or.inr hc
  | cons first rest =>
      rcases List.mem_cons.mp hc with rfl | hrest
      · by_cases hm : isMarker first
        · exact Or.inl (if_pos hm)
        · rw [if_neg hm]
          exact Or.inr List.mem_cons_self
      · exact Or.inr (List.mem_cons_of_mem _ hrest)

-- The symbols that an event knows of, its own and the one before it, are read off the text.
theorem symbols_eventsFrom {p : Symbol → Prop} (current : Option Symbol) (short : Bool)
    (cs : List Char) (hcurrent : ∀ s ∈ current, p s)
    (hcs : ∀ c ∈ cs, isSymbol c → p (Symbol.ofChar c)) :
    ∀ e ∈ eventsFrom current short cs, p e.symbol ∧ ∀ s ∈ e.previous, p s := by
  induction cs using chars_induction generalizing current short with
  | nil => simp
  | marker c rest hc ih =>
      rw [eventsFrom_marker current short c rest hc]
      exact ih current short hcurrent fun c hc => hcs c (List.mem_cons_of_mem _ hc)
  | bracket c rest hc ih =>
      rw [eventsFrom_bracket current short c rest hc]
      intro e he
      rcases List.mem_append.mp he with he | he
      · cases current with
        | none => simp at he
        | some s =>
            cases hm : leadingMarkers rest with
            | zero => simp [hm] at he
            | succ n =>
                rw [hm, redrawn_succ, List.mem_singleton] at he
                subst he
                exact ⟨hcurrent s rfl, by simp⟩
      · exact ih current (c == '<') hcurrent (fun c hc => hcs c (List.mem_cons_of_mem _ hc)) e he
  | symbol c rest hc ih =>
      have hp : p (Symbol.ofChar c) := hcs c List.mem_cons_self hc
      rw [eventsFrom_symbol current short c rest hc]
      intro e he
      rcases List.mem_cons.mp he with rfl | he
      · exact ⟨hp, hcurrent⟩
      · refine ih (some (Symbol.ofChar c)) short ?_ ?_ e he
        · rintro s ⟨⟩
          exact hp
        · exact fun c hc => hcs c (List.mem_cons_of_mem _ hc)

theorem symbols_events {p : Symbol → Prop} (wave : String) (hx : p (.level .unknown))
    (hwave : ∀ c ∈ wave.toList, isSymbol c → p (Symbol.ofChar c)) :
    ∀ e ∈ events wave, p e.symbol ∧ ∀ s ∈ e.previous, p s := by
  refine symbols_eventsFrom none false (openingSymbol wave.toList) (by simp) ?_
  intro c hc hs
  rcases eq_x_or_mem_of_mem_openingSymbol wave.toList c hc with rfl | hc
  · exact hx
  · exact hwave c hc hs

-- Without brackets no cycle is short.
theorem short_eventsFrom (current : Option Symbol) (cs : List Char)
    (hcs : ∀ c ∈ cs, isBracket c = false) :
    ∀ e ∈ eventsFrom current false cs, e.short = false := by
  induction cs using chars_induction generalizing current with
  | nil => simp
  | marker c rest hc ih =>
      rw [eventsFrom_marker current false c rest hc]
      exact ih current fun c hc => hcs c (List.mem_cons_of_mem _ hc)
  | bracket c rest hc ih =>
      have hb := hcs c List.mem_cons_self
      rw [hc] at hb
      cases hb
  | symbol c rest hc ih =>
      rw [eventsFrom_symbol current false c rest hc]
      intro e he
      rcases List.mem_cons.mp he with rfl | he
      · rfl
      · exact ih _ (fun c hc => hcs c (List.mem_cons_of_mem _ hc)) e he

-- Each cycle of an event is a character of the wave: a symbol or one of its markers.
theorem sum_cycles_eventsFrom (current : Option Symbol) (short : Bool) (cs : List Char) :
    ((eventsFrom current short cs).map Event.cycles).sum + leadingMarkers cs ≤ cs.length := by
  induction cs using chars_induction generalizing current short with
  | nil => simp
  | marker c rest hc ih =>
      have h := ih current short
      rw [eventsFrom_marker current short c rest hc, leadingMarkers_marker c rest hc,
        List.length_cons]
      omega
  | bracket c rest hc ih =>
      have h := ih current (c == '<')
      have hr : ((redrawn current (c == '<') (leadingMarkers rest)).map Event.cycles).sum ≤
          leadingMarkers rest := by
        cases current with
        | none => simp
        | some s => cases leadingMarkers rest <;> simp [Event.cycles]
      rw [eventsFrom_bracket current short c rest hc, leadingMarkers_bracket c rest hc,
        List.map_append, List.sum_append, List.length_cons]
      omega
  | symbol c rest hc ih =>
      have h := ih (some (Symbol.ofChar c)) short
      rw [eventsFrom_symbol current short c rest hc, leadingMarkers_symbol c rest hc,
        List.map_cons, List.sum_cons, List.length_cons]
      simp only [Event.cycles]
      omega

theorem sum_cycles_le_length (wave : String) :
    ((events wave).map Event.cycles).sum ≤ wave.length := by
  have h := sum_cycles_eventsFrom none false (openingSymbol wave.toList)
  rw [leadingMarkers_openingSymbol, length_openingSymbol, String.length_toList] at h
  exact h

-- Each event is drawn as a fresh start or goes on from the symbol of the event before it.
def Linked : Option Symbol → List Event → Prop
  | _, [] => True
  | current, e :: rest =>
      (e.previous = none ∨ e.previous = current) ∧ Linked (some e.symbol) rest

theorem linked_eventsFrom (current : Option Symbol) (short : Bool) (cs : List Char) :
    Linked current (eventsFrom current short cs) := by
  induction cs using chars_induction generalizing current short with
  | nil => trivial
  | marker c rest hc ih =>
      rw [eventsFrom_marker current short c rest hc]
      exact ih current short
  | bracket c rest hc ih =>
      rw [eventsFrom_bracket current short c rest hc]
      cases current with
      | none => simpa using ih none (c == '<')
      | some s =>
          cases leadingMarkers rest with
          | zero => exact ih (some s) (c == '<')
          | succ n => exact ⟨Or.inl rfl, ih (some s) (c == '<')⟩
  | symbol c rest hc ih =>
      rw [eventsFrom_symbol current short c rest hc]
      exact ⟨Or.inr rfl, ih (some (Symbol.ofChar c)) short⟩

theorem linked_events (wave : String) : Linked none (events wave) :=
  linked_eventsFrom none false (openingSymbol wave.toList)

end TimingDiagram.Wave
