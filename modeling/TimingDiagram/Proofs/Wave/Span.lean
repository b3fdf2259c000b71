import TimingDiagram.Proofs.Wave.Appending
import TimingDiagram.Proofs.Wave.Reading

namespace TimingDiagram.Wave

-- The half cycles that the characters of a text take, whether or not anything is drawn for them.
def span (short : Bool) : List Char → ℕ
  | [] => 0
  | c :: rest =>
    if isBracket c then span (c == '<') rest else cycleHalves short + span short rest

-- No marker of a wave goes without a symbol: it does not begin with a bracket, or what comes after
-- its first brackets is no marker.
def KeepsMarkers (wave : String) : Prop :=
  wave.toList.head?.any isBracket = false ∨
    (wave.toList.find? fun c => !isBracket c).any isMarker = false

theorem KeepsMarkers.of_append {u v : String} (h : KeepsMarkers (u ++ v)) : KeepsMarkers u := by
  unfold KeepsMarkers at h ⊢
  rw [String.toList_append] at h
  rcases h with h | h
  · left
    cases hu : u.toList with
    | nil => rfl
    | cons c rest =>
        rw [hu] at h
        exact h
  · right
    rw [List.find?_append] at h
    cases hu : u.toList.find? fun c => !isBracket c with
    | none => rfl
    | some c =>
        rw [hu] at h
        exact h

theorem span_bracket (short : Bool) (c : Char) (rest : List Char) (hc : isBracket c) :
    span short (c :: rest) = span (c == '<') rest := by
  rw [span, if_pos hc]

theorem span_of_not_bracket (short : Bool) (c : Char) (rest : List Char)
    (hc : isBracket c = false) : span short (c :: rest) = cycleHalves short + span short rest := by
  rw [span, if_neg (by simp [hc])]

theorem span_append (short : Bool) (cs ds : List Char) :
    span short (cs ++ ds) = span short cs + span (shortAfter short cs) ds := by
  induction cs generalizing short with
  | nil => simp [span]
  | cons c rest ih =>
      rw [List.cons_append]
      by_cases hc : isBracket c
      · rw [span_bracket short c _ hc, span_bracket short c _ hc,
          shortAfter_bracket short c _ hc, ih]
      · have hb : isBracket c = false := by simpa using hc
        rw [span_of_not_bracket short c _ hb, span_of_not_bracket short c _ hb,
          shortAfter_of_not_isBracket short c _ hb, ih, Nat.add_assoc]

theorem length_halves (s : Symbol) (half count : ℕ) :
    (halves (some s) half count).length = count := by
  simp [halves]

-- Once there is a symbol, every character says something.
theorem length_readFrom (s : Symbol) (short : Bool) (half : ℕ) (cs : List Char) :
    (readFrom (some s) short half cs).length = span short cs := by
  induction cs generalizing s short half with
  | nil => rfl
  | cons c rest ih =>
      rw [readFrom]
      by_cases hb : isBracket c
      · rw [if_pos hb, ih, span_bracket short c rest hb]
      · rw [if_neg hb, span_of_not_bracket short c rest (by simpa using hb)]
        by_cases hm : isMarker c
        · rw [if_pos hm, List.length_append, length_halves, ih]
        · rw [if_neg hm, List.length_append, length_halves, ih]

theorem length_readFrom_none (short : Bool) (half : ℕ) (cs : List Char)
    (h : (cs.find? fun c => !isBracket c).any isMarker = false) :
    (readFrom none short half cs).length = span short cs := by
  induction cs generalizing short half with
  | nil => rfl
  | cons c rest ih =>
      rw [readFrom]
      by_cases hb : isBracket c
      · rw [List.find?_cons_of_neg (by simp [hb])] at h
        rw [if_pos hb, ih _ _ h, span_bracket short c rest hb]
      · rw [List.find?_cons_of_pos (by simp [hb]), Option.any_some] at h
        rw [if_neg hb, if_neg (by simp [h]), List.length_append, length_halves, length_readFrom,
          span_of_not_bracket short c rest (by simpa using hb)]

theorem length_reading {wave : String} (h : KeepsMarkers wave) :
    (reading wave).length = span false wave.toList := by
  unfold KeepsMarkers at h
  unfold reading
  cases hw : wave.toList with
  | nil => rfl
  | cons c rest =>
      rw [hw] at h
      by_cases hm : isMarker c
      · simp only [hm, if_true]
        rw [List.length_append, length_halves, length_readFrom,
          span_of_not_bracket false c rest (isBracket_eq_false_of_isMarker c hm)]
        rfl
      · simp only [hm]
        apply length_readFrom_none
        rcases h with h | h
        · have hb : isBracket c = false := h
          rw [List.find?_cons_of_pos (by simp [hb])]
          simpa using hm
        · exact h

-- Cells of a whole number give each half cycle as many bricks.
theorem length_unshifted_extra {wave : String} (h : KeepsMarkers wave) (extra : ℕ) :
    (unshifted wave (.extra extra)).length = span false wave.toList * (1 + extra) := by
  have hlength := congrArg List.length (map_ending_unshifted wave extra)
  rw [List.length_map, List.length_flatMap] at hlength
  simp only [List.length_replicate, List.map_const', List.sum_replicate_nat] at hlength
  rw [hlength, length_reading h]

end TimingDiagram.Wave
