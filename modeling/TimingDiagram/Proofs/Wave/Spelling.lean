import TimingDiagram.Proofs.Wave.Appending

namespace TimingDiagram

theorem DataIndex.ofNat?_eq_none {n : ℕ} (hn : ¬ (2 ≤ n ∧ n ≤ 9)) : ofNat? n = none :=
  dif_neg hn

namespace Wave

-- The characters of the notation that have a meaning of their own.
def alphabet : List Char :=
  ['0', '1', 'x', 'z', 'd', 'u', '=', '2', '3', '4', '5', '6', '7', '8', '9', 'p', 'n', 'P', 'N',
    'h', 'l', 'H', 'L', '.', '|', '<', '>']

-- One change in the spelling of a wave: the other marker, the digit of the plain bus value, the
-- sign of the unknown level, or a bracket less that no symbol and no marker stands behind.
inductive Respelling : List Char → List Char → Prop
  | marker (u v : List Char) : Respelling (u ++ '|' :: v) (u ++ '.' :: v)
  | value (u v : List Char) : Respelling (u ++ '=' :: v) (u ++ '2' :: v)
  | unknown (u v : List Char) (c : Char) (hc : c ∉ alphabet) :
      Respelling (u ++ c :: v) (u ++ 'x' :: v)
  | lastBracket (u : List Char) (b : Char) (hb : isBracket b) : Respelling (u ++ [b]) u
  | bracketPair (u v : List Char) (b b' : Char) (hb : isBracket b) (hb' : isBracket b') :
      Respelling (u ++ b :: b' :: v) (u ++ b' :: v)

-- Two characters other than brackets that play one part in every wave.
structure Synonyms (c d : Char) : Prop where
  marker : isMarker c = isMarker d
  left : isBracket c = false
  right : isBracket d = false
  symbol : Symbol.ofChar c = Symbol.ofChar d

theorem synonyms_markers : Synonyms '|' '.' := by constructor <;> rfl

theorem synonyms_values : Synonyms '=' '2' := by constructor <;> rfl

theorem ofDigit_of_not_mem_alphabet {c : Char} (hc : c ∉ alphabet) :
    Symbol.ofDigit c = .level .unknown := by
  have hdigits : ∀ n < 8, Char.ofNat (50 + n) ∈ alphabet := by decide
  have hout : ¬ (2 ≤ c.toNat - 48 ∧ c.toNat - 48 ≤ 9) := by
    rintro ⟨hlow, hhigh⟩
    have hmem := hdigits (c.toNat - 50) (by omega)
    rw [Nat.add_sub_cancel' (by omega), Char.ofNat_toNat] at hmem
    exact hc hmem
  have hnone : DataIndex.ofNat? (c.toNat - '0'.toNat) = none :=
    DataIndex.ofNat?_eq_none hout
  unfold Symbol.ofDigit
  rw [hnone]

theorem synonyms_unknown {c : Char} (hc : c ∉ alphabet) : Synonyms c 'x' := by
  have hne : ∀ d ∈ alphabet, c ≠ d := by
    rintro d hd rfl
    exact hc hd
  constructor
  · simp [isMarker, hne '.' (by decide), hne '|' (by decide)]
  · simp [isBracket, hne '<' (by decide), hne '>' (by decide)]
  · rfl
  · unfold Symbol.ofChar
    split
    case h_15 c => exact ofDigit_of_not_mem_alphabet hc
    all_goals exact absurd (by decide) hc

namespace Synonyms

variable {c d : Char}

theorem leadingMarkers_eq (h : Synonyms c d) (u v : List Char) :
    leadingMarkers (u ++ c :: v) = leadingMarkers (u ++ d :: v) := by
  have hrest : leadingMarkers (c :: v) = leadingMarkers (d :: v) := by
    simp only [leadingMarkers, List.takeWhile_cons, h.marker]
    split <;> rfl
  rw [leadingMarkers_append, leadingMarkers_append, hrest]

theorem eventsFrom_eq (h : Synonyms c d) (current : Option Symbol) (short : Bool)
    (u v : List Char) :
    eventsFrom current short (u ++ c :: v) = eventsFrom current short (u ++ d :: v) := by
  induction u using chars_induction generalizing current short with
  | nil =>
      have hm := h.marker
      simp only [List.nil_append]
      cases hc : isMarker c with
      | true =>
          rw [hc] at hm
          rw [eventsFrom_marker current short c v hc, eventsFrom_marker current short d v hm.symm]
      | false =>
          rw [hc] at hm
          have hsc : isSymbol c = true := by simp [isSymbol, hc, h.left]
          have hsd : isSymbol d = true := by simp [isSymbol, hm.symm, h.right]
          rw [eventsFrom_symbol current short c v hsc, eventsFrom_symbol current short d v hsd,
            h.symbol]
  | marker a rest ha ih =>
      rw [List.cons_append, List.cons_append, eventsFrom_marker current short a _ ha,
        eventsFrom_marker current short a _ ha]
      exact ih current short
  | bracket a rest ha ih =>
      rw [List.cons_append, List.cons_append, eventsFrom_bracket current short a _ ha,
        eventsFrom_bracket current short a _ ha, h.leadingMarkers_eq rest v, ih]
  | symbol a rest ha ih =>
      rw [List.cons_append, List.cons_append, eventsFrom_symbol current short a _ ha,
        eventsFrom_symbol current short a _ ha, h.leadingMarkers_eq rest v, ih]

theorem opened_eq (h : Synonyms c d) (u v : List Char) :
    eventsFrom none false (openingSymbol (u ++ c :: v)) =
      eventsFrom none false (openingSymbol (u ++ d :: v)) := by
  by_cases hu : u = []
  · subst hu
    simp only [List.nil_append, openingSymbol]
    cases hd : isMarker d with
    | true => rw [h.marker, hd, if_pos rfl, if_pos rfl]
    | false =>
        rw [h.marker, hd, if_neg Bool.false_ne_true, if_neg Bool.false_ne_true]
        exact h.eventsFrom_eq none false [] v
  · rw [openingSymbol_append u _ hu, openingSymbol_append u _ hu]
    exact h.eventsFrom_eq none false (openingSymbol u) v

end Synonyms

-- The end of a wave and what starts with a bracket do not ask for the length of cycles before
-- them.
structure SetsLength (cs : List Char) : Prop where
  noMarker : cs.head?.any isMarker = false
  eventsFrom_eq : ∀ current short short',
    eventsFrom current short cs = eventsFrom current short' cs

theorem setsLength_nil : SetsLength [] := ⟨rfl, fun _ _ _ => rfl⟩

theorem setsLength_bracket {b : Char} (hb : isBracket b) (v : List Char) : SetsLength (b :: v) := by
  refine ⟨isMarker_eq_false_of_isBracket b hb, fun current short short' => ?_⟩
  rw [eventsFrom_bracket current short b v hb, eventsFrom_bracket current short' b v hb]

theorem openingSymbol_append_of_not_isMarker (u v : List Char)
    (hv : v.head?.any isMarker = false) : openingSymbol (u ++ v) = openingSymbol u ++ v := by
  by_cases hu : u = []
  · subst hu
    exact openingSymbol_of_not_isMarker v hv
  · exact openingSymbol_append u v hu

theorem leadingMarkers_eq_zero {cs : List Char} (hcs : cs.head?.any isMarker = false) :
    leadingMarkers cs = 0 := by
  by_contra hn
  rw [(head_isMarker_iff cs).mpr hn] at hcs
  cases hcs

-- A bracket in front of them draws nothing and leaves nothing behind.
theorem SetsLength.opened_bracket {v : List Char} (h : SetsLength v) {b : Char} (hb : isBracket b)
    (u : List Char) :
    eventsFrom none false (openingSymbol (u ++ b :: v)) =
      eventsFrom none false (openingSymbol (u ++ v)) := by
  have hbracket := (setsLength_bracket hb v).noMarker
  have hnone := leadingMarkers_eq_zero h.noMarker
  rw [openingSymbol_append_of_not_isMarker u _ hbracket,
    openingSymbol_append_of_not_isMarker u _ h.noMarker,
    eventsFrom_append none false _ _ (leadingMarkers_bracket b v hb),
    eventsFrom_append none false _ _ hnone, eventsFrom_bracket _ _ b v hb, hnone, redrawn_zero,
    List.nil_append]
  congr 1
  exact h.eventsFrom_eq _ _ _

theorem opened_respelling {cs ds : List Char} (h : Respelling cs ds) :
    eventsFrom none false (openingSymbol cs) = eventsFrom none false (openingSymbol ds) := by
  cases h with
  | marker u v => exact synonyms_markers.opened_eq u v
  | value u v => exact synonyms_values.opened_eq u v
  | unknown u v c hc => exact (synonyms_unknown hc).opened_eq u v
  | lastBracket _ b hb =>
      have hlast := setsLength_nil.opened_bracket hb ds
      rwa [List.append_nil] at hlast
  | bracketPair u v b b' hb hb' => exact (setsLength_bracket hb' v).opened_bracket hb u

-- Spellings that are brought to one another, change by change in either direction, draw one lane.
theorem bricks_respelled (wave wave' : String) (stretch phase : Float)
    (h : Relation.EqvGen Respelling wave.toList wave'.toList) :
    bricks wave stretch phase = bricks wave' stretch phase := by
  have hevents : events wave = events wave' := by
    change eventsFrom none false (openingSymbol wave.toList) =
      eventsFrom none false (openingSymbol wave'.toList)
    generalize wave.toList = cs at h
    generalize wave'.toList = ds at h
    induction h with
    | rel cs ds h => exact opened_respelling h
    | refl cs => rfl
    | symm cs ds _ ih => exact ih.symm
    | trans cs ds es _ _ ih ih' => exact ih.trans ih'
  rw [bricks, bricks, unshifted, unshifted, hevents]

-- All changes at once, on a wave that opens with a marker.
theorem bricks_respelled_opening_gap :
    Relation.EqvGen Respelling "|<>=?.<".toList ".>2x|".toList ∧
      bricks "|<>=?.<" (1.0 : Float) (0.5 : Float) =
        bricks ".>2x|" (1.0 : Float) (0.5 : Float) := by
  have hpair : Respelling "|<>=?.<".toList "|>=?.<".toList :=
    .bracketPair ['|'] ['=', '?', '.', '<'] '<' '>' rfl rfl
  have hlast : Respelling "|>=?.<".toList "|>=?.".toList :=
    .lastBracket ['|', '>', '=', '?', '.'] '<' rfl
  have hvalue : Respelling "|>=?.".toList "|>2?.".toList := .value ['|', '>'] ['?', '.']
  have hunknown : Respelling "|>2?.".toList "|>2x.".toList :=
    .unknown ['|', '>', '2'] ['.'] '?' (by decide)
  have hfirst : Respelling "|>2x.".toList ".>2x.".toList := .marker [] ['>', '2', 'x', '.']
  have hgap : Respelling ".>2x|".toList ".>2x.".toList := .marker ['.', '>', '2', 'x'] []
  have hsame : Relation.EqvGen Respelling "|<>=?.<".toList ".>2x|".toList :=
    (Relation.EqvGen.rel _ _ hpair).trans _ _ _ <| (Relation.EqvGen.rel _ _ hlast).trans _ _ _ <|
      (Relation.EqvGen.rel _ _ hvalue).trans _ _ _ <|
      (Relation.EqvGen.rel _ _ hunknown).trans _ _ _ <|
      (Relation.EqvGen.rel _ _ hfirst).trans _ _ _ <| (Relation.EqvGen.rel _ _ hgap).symm _ _
  exact ⟨hsame, bricks_respelled "|<>=?.<" ".>2x|" 1.0 0.5 hsame⟩

end Wave

end TimingDiagram
