import TimingDiagram.Proofs.Wave.Events
import TimingDiagram.Proofs.Wave.EventBricks
import TimingDiagram.Proofs.Wave.Shift

namespace TimingDiagram.Wave

-- The symbol that a text leaves behind, if it holds one, else the symbol before it.
def currentAfter (current : Option Symbol) (cs : List Char) : Option Symbol :=
  ((cs.filter isSymbol).getLast?.map Symbol.ofChar).or current

-- Whether cycles are short behind a text: the last bracket decides.
def shortAfter (short : Bool) (cs : List Char) : Bool :=
  ((cs.filter isBracket).getLast?.map (· == '<')).getD short

-- The two things that the rest of a wave can depend on.
def currentSymbol (wave : String) : Option Symbol :=
  currentAfter none (openingSymbol wave.toList)

def endsShort (wave : String) : Bool := shortAfter false wave.toList

@[simp] theorem currentAfter_nil (current : Option Symbol) : currentAfter current [] = current :=
  Option.none_or

@[simp] theorem shortAfter_nil (short : Bool) : shortAfter short [] = short := rfl

theorem currentAfter_of_not_isSymbol (current : Option Symbol) (c : Char) (rest : List Char)
    (hc : isSymbol c = false) : currentAfter current (c :: rest) = currentAfter current rest := by
  simp [currentAfter, hc]

theorem currentAfter_symbol (current : Option Symbol) (c : Char) (rest : List Char)
    (hc : isSymbol c) :
    currentAfter current (c :: rest) = currentAfter (some (Symbol.ofChar c)) rest := by
  simp only [currentAfter, List.filter_cons_of_pos hc, List.getLast?_cons]
  cases (rest.filter isSymbol).getLast? with
  | none => rfl
  | some last => rfl

theorem shortAfter_of_not_isBracket (short : Bool) (c : Char) (rest : List Char)
    (hc : isBracket c = false) : shortAfter short (c :: rest) = shortAfter short rest := by
  simp [shortAfter, hc]

theorem shortAfter_bracket (short : Bool) (c : Char) (rest : List Char) (hc : isBracket c) :
    shortAfter short (c :: rest) = shortAfter (c == '<') rest := by
  simp only [shortAfter, List.filter_cons_of_pos hc, List.getLast?_cons]
  cases (rest.filter isBracket).getLast? with
  | none => rfl
  | some last => rfl

-- The opening symbol stands in for a marker, so it changes no bracket.
theorem shortAfter_openingSymbol (short : Bool) (cs : List Char) :
    shortAfter short (openingSymbol cs) = shortAfter short cs := by
  cases cs with
  | nil => rfl
  | cons c rest =>
      by_cases hc : isMarker c
      · have hb := isBracket_eq_false_of_isMarker c hc
        rw [openingSymbol, if_pos hc, shortAfter_of_not_isBracket short 'x' rest rfl,
          shortAfter_of_not_isBracket short c rest hb]
      · rw [openingSymbol, if_neg hc]

-- A text that starts with no marker leaves the events before it alone, and its own events need
-- only the current symbol and the length of cycles.
theorem eventsFrom_append (current : Option Symbol) (short : Bool) (cs ds : List Char)
    (hds : leadingMarkers ds = 0) :
    eventsFrom current short (cs ++ ds) =
      eventsFrom current short cs ++
        eventsFrom (currentAfter current cs) (shortAfter short cs) ds := by
  have hmarkers : ∀ rest, leadingMarkers (rest ++ ds) = leadingMarkers rest := by
    intro rest
    rw [leadingMarkers_append, hds, ite_self, Nat.add_zero]
  induction cs using chars_induction generalizing current short with
  | nil => simp
  | marker c rest hc ih =>
      have hs : isSymbol c = false := by simp [isSymbol, hc]
      have hb := isBracket_eq_false_of_isMarker c hc
      rw [List.cons_append, eventsFrom_marker current short c _ hc,
        eventsFrom_marker current short c _ hc, currentAfter_of_not_isSymbol current c rest hs,
        shortAfter_of_not_isBracket short c rest hb]
      exact ih current short
  | bracket c rest hc ih =>
      have hs : isSymbol c = false := by simp [isSymbol, hc]
      rw [List.cons_append, eventsFrom_bracket current short c _ hc,
        eventsFrom_bracket current short c _ hc, currentAfter_of_not_isSymbol current c rest hs,
        shortAfter_bracket short c rest hc, hmarkers, ih, List.append_assoc]
  | symbol c rest hc ih =>
      have hb := isBracket_eq_false_of_isSymbol c hc
      rw [List.cons_append, eventsFrom_symbol current short c _ hc,
        eventsFrom_symbol current short c _ hc, currentAfter_symbol current c rest hc,
        shortAfter_of_not_isBracket short c rest hb, hmarkers, ih, List.cons_append]

theorem openingSymbol_of_not_isMarker (cs : List Char) (hcs : cs.head?.any isMarker = false) :
    openingSymbol cs = cs := by
  cases cs with
  | nil => rfl
  | cons c rest =>
      have hc : isMarker c = false := hcs
      rw [openingSymbol, hc]
      rfl

theorem unshifted_append (u v : String) (stretch : Stretch)
    (hv : v.toList.head?.any isMarker = false) :
    unshifted (u ++ v) stretch =
      unshifted u stretch ++
        (eventsFrom (currentSymbol u) (endsShort u) v.toList).flatMap (Event.bricks stretch) := by
  have hmarkers : leadingMarkers v.toList = 0 := by
    by_contra hn
    rw [(head_isMarker_iff v.toList).mpr hn] at hv
    exact Bool.noConfusion hv
  have hopen : openingSymbol (u ++ v).toList = openingSymbol u.toList ++ v.toList := by
    rw [String.toList_append]
    by_cases hu : u.toList = []
    · rw [hu]
      exact openingSymbol_of_not_isMarker v.toList hv
    · exact openingSymbol_append u.toList v.toList hu
  rw [unshifted, unshifted, events, events, hopen,
    eventsFrom_append none false (openingSymbol u.toList) v.toList hmarkers, List.flatMap_append,
    shortAfter_openingSymbol]
  rfl

-- Text behind a text either leaves its last markers alone or finds no event behind them.
theorem leadingMarkers_append_cases (cs ds : List Char) :
    leadingMarkers (cs ++ ds) = leadingMarkers cs ∨
      ∀ current short, eventsFrom current short cs = [] := by
  by_cases h : leadingMarkers cs = cs.length
  · right
    intro current short
    exact eventsFrom_markers current short cs h
  · left
    rw [leadingMarkers_append, if_neg h, Nat.add_zero]

theorem prefix_redrawn (stretch : Stretch) (current : Option Symbol) (short : Bool)
    {n m : Nat} (h : n ≤ m) :
    (redrawn current short n).flatMap (Event.bricks stretch) <+:
      (redrawn current short m).flatMap (Event.bricks stretch) := by
  cases current with
  | none => simp
  | some s =>
      cases n with
      | zero => exact List.nil_prefix
      | succ n =>
          obtain ⟨more, rfl⟩ := Nat.exists_eq_add_of_le h
          rw [Nat.succ_add, redrawn_succ, redrawn_succ, List.flatMap_singleton,
            List.flatMap_singleton]
          exact Event.bricks_extended stretch ⟨none, s, n, short⟩ more

-- An event at the end can only grow; one with events behind it stays as it is.
theorem bricks_eventsFrom_append (stretch : Stretch) (current : Option Symbol) (short : Bool)
    (cs ds : List Char) :
    (eventsFrom current short cs).flatMap (Event.bricks stretch) <+:
      (eventsFrom current short (cs ++ ds)).flatMap (Event.bricks stretch) := by
  induction cs using chars_induction generalizing current short with
  | nil => exact List.nil_prefix
  | marker c rest hc ih =>
      rw [List.cons_append, eventsFrom_marker current short c _ hc,
        eventsFrom_marker current short c _ hc]
      exact ih current short
  | bracket c rest hc ih =>
      rw [List.cons_append, eventsFrom_bracket current short c _ hc,
        eventsFrom_bracket current short c _ hc, List.flatMap_append, List.flatMap_append]
      rcases leadingMarkers_append_cases rest ds with h | h
      · rw [h, List.prefix_append_right_inj]
        exact ih current (c == '<')
      -- The text ends on this bracket and its markers, so nothing was drawn behind them.
      · rw [h, List.flatMap_nil, List.append_nil]
        exact (prefix_redrawn stretch current (c == '<') (leadingMarkers_le_append rest ds)).trans
          (List.prefix_append _ _)
  | symbol c rest hc ih =>
      rw [List.cons_append, eventsFrom_symbol current short c _ hc,
        eventsFrom_symbol current short c _ hc, List.flatMap_cons, List.flatMap_cons]
      rcases leadingMarkers_append_cases rest ds with h | h
      · rw [h, List.prefix_append_right_inj]
        exact ih (some (Symbol.ofChar c)) short
      · obtain ⟨more, hmore⟩ := Nat.exists_eq_add_of_le (leadingMarkers_le_append rest ds)
        rw [h, List.flatMap_nil, List.append_nil, hmore]
        exact (Event.bricks_extended stretch ⟨current, Symbol.ofChar c, leadingMarkers rest, short⟩
          more).trans (List.prefix_append _ _)

theorem prefix_unshifted (u v : String) (stretch : Stretch) :
    unshifted u stretch <+: unshifted (u ++ v) stretch := by
  rw [unshifted, unshifted, events, events, String.toList_append]
  by_cases hu : u.toList = []
  · rw [hu]
    exact List.nil_prefix
  · rw [openingSymbol_append u.toList v.toList hu]
    exact bricks_eventsFrom_append stretch none false (openingSymbol u.toList) v.toList

-- A wave is drawn from left to right, and its drawing goes on from one symbol and one length.
theorem bricks_append :
    (∀ (u v : String) (stretch phase : Float),
      bricks u stretch phase <+: bricks (u ++ v) stretch phase) ∧
    ∀ (u u' v : String) (stretch phase : Float), phase ≤ 0.0 →
      v.toList.head?.any isMarker = false →
      currentSymbol u = currentSymbol u' → endsShort u = endsShort u' →
        (bricks (u ++ v) stretch phase).drop (bricks u stretch phase).length =
          (bricks (u' ++ v) stretch phase).drop (bricks u' stretch phase).length := by
  constructor
  · intro u v stretch phase
    exact prefix_shifted phase (prefix_unshifted u v (Stretch.of stretch))
  · intro u u' v stretch phase hphase hv hsymbol hshort
    simp only [bricks, shifted_of_nonpos hphase]
    rw [unshifted_append u v _ hv, unshifted_append u' v _ hv, List.drop_left, List.drop_left,
      hsymbol, hshort]

-- Two waves that both leave a clock behind, in short cycles, and what a bracket draws after them.
theorem bricks_append_same_rest :
    (bricks ("0<p" ++ ">.0") (0.0 : Float) (0.0 : Float)).drop 3 =
      (bricks ("h.>1<p" ++ ">.0") (0.0 : Float) (0.0 : Float)).drop 7 :=
  bricks_append.2 "0<p" "h.>1<p" ">.0" 0.0 0.0 (by decide) rfl rfl rfl

end TimingDiagram.Wave
