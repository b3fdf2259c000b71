import TimingDiagram.Proofs.Drawing.Grid

namespace TimingDiagram.Drawing

open Wave (isBracket shortAfter cycleHalves span)

theorem length_gapsFrom {α : Type} [Scalar α] (f : Frame) (t : Timing α) (short : Bool)
    (position : α) (cs : List Char) :
    (gapsFrom f t short position cs).length = cs.count '|' := by
  induction cs generalizing short position with
  | nil => rfl
  | cons c rest ih =>
      rw [gapsFrom]
      by_cases hb : c = '<' ∨ c = '>'
      · have hc : c ≠ '|' := by
          rintro rfl
          simp at hb
        rw [List.count_cons_of_ne hc]
        rcases hb with rfl | rfl <;> exact ih _ _
      · obtain ⟨hopen, hclose⟩ := not_or.mp hb
        simp only [beq_iff_eq, hopen, hclose, if_false, List.count_cons]
        split
        · rw [List.length_cons, ih]
        · exact ih _ _

section Scan

variable (f : Frame) (t : Timing ℚ) (short : Bool) (position : ℚ)

-- The sign of a gap that begins at a position. It stands one half cycle further on, whether that is
-- the middle of a cycle or the end of a short one.
def gapX : ℚ :=
  f.cell.width * ((position + t.period) * f.hscale - Scalar.truncated (2.0 * t.phase))

theorem gapsFrom_bracket (c : Char) (rest : List Char) (hc : isBracket c) :
    gapsFrom f t short position (c :: rest) = gapsFrom f t (c == '<') position rest := by
  simp only [isBracket, Bool.or_eq_true, beq_iff_eq] at hc
  rcases hc with rfl | rfl <;> simp [gapsFrom]

theorem gapsFrom_of_not_bracket (c : Char) (rest : List Char) (hc : isBracket c = false) :
    gapsFrom f t short position (c :: rest) =
      (if c == '|' then [gapX f t position] else []) ++
        gapsFrom f t short (position + cycleHalves short * t.period) rest := by
  simp only [isBracket, Bool.or_eq_false_iff] at hc
  have hposition : position + (if short then t.period else 2.0 * t.period) =
      position + cycleHalves short * t.period := by
    cases short <;> norm_num [cycleHalves]
  have hcentre : (if short then position + cycleHalves short * t.period
      else position + cycleHalves short * t.period - t.period) = position + t.period := by
    cases short
    · simp only [cycleHalves, Bool.false_eq_true, if_false]
      push_cast
      ring
    · simp [cycleHalves]
  rw [gapsFrom, hc.1, hc.2]
  simp only [Bool.false_eq_true, if_false]
  rw [hposition, hcentre]
  split <;> rfl

-- The position reached behind a text is as many half cycles on as the text has.
theorem gapsFrom_append (cs ds : List Char) :
    gapsFrom f t short position (cs ++ ds) =
      gapsFrom f t short position cs ++
        gapsFrom f t (shortAfter short cs) (position + span short cs * t.period) ds := by
  induction cs generalizing short position with
  | nil => simp [gapsFrom, span]
  | cons c rest ih =>
      rw [List.cons_append]
      by_cases hb : isBracket c
      · rw [gapsFrom_bracket f t short position c _ hb, gapsFrom_bracket f t short position c _ hb,
          Wave.shortAfter_bracket short c rest hb, Wave.span_bracket short c rest hb, ih]
      · have hc : isBracket c = false := by simpa using hb
        have hspan : position + cycleHalves short * t.period + span short rest * t.period =
            position + ((cycleHalves short + span short rest : ℕ) : ℚ) * t.period := by
          push_cast
          ring
        rw [gapsFrom_of_not_bracket f t short position c _ hc,
          gapsFrom_of_not_bracket f t short position c _ hc,
          Wave.shortAfter_of_not_isBracket short c rest hc,
          Wave.span_of_not_bracket short c rest hc, ih, hspan, List.append_assoc]

theorem gaps_getElem? (u v : String) :
    (gaps f t (u ++ "|" ++ v))[u.toList.count '|']? =
      some (gapX f t (span false u.toList * t.period)) := by
  have hzero : (0.0 : ℚ) = 0 := by norm_num
  have htext : (u ++ "|" ++ v).toList = u.toList ++ '|' :: v.toList := by
    simp [String.toList_append]
  have hgaps : gaps f t (u ++ "|" ++ v) =
      gapsFrom f t false 0 u.toList ++
        gapsFrom f t (shortAfter false u.toList) (span false u.toList * t.period)
          ('|' :: v.toList) := by
    rw [gaps, htext, ← zero_add (span false u.toList * t.period), ← gapsFrom_append, ← hzero]
  rw [hgaps, ← length_gapsFrom f t false 0, List.getElem?_append_right le_rfl, Nat.sub_self,
    gapsFrom_of_not_bracket _ _ _ _ '|' _ rfl]
  rfl

end Scan

section Agreement

variable {f : Frame} {t : Timing ℚ} {cells : ℕ} {halves : ℤ}

theorem gapX_eq (h : t.OnGrid f cells halves) (n : ℕ) :
    gapX f t (n * t.period) = f.cell.width * ((n * cells : ℕ) + cells - 2 * t.phase) := by
  have hposition : ((n : ℚ) * t.period + t.period) * f.hscale = (n * cells : ℕ) + cells := by
    push_cast
    rw [← h.period_mul]
    ring
  rw [gapX, hposition, literal_two_mul h.two_mul_phase, truncated_intCast, h.two_mul_phase]

-- Every gap has its sign, in the order of the wave, one half cycle behind the left edge of its own
-- first brick.
theorem gaps_aligned (f : Frame) (t : Timing ℚ) (cells : ℕ) (halves : ℤ) (wave : String)
    (hgrid : t.OnGrid f cells halves) (hwave : Wave.KeepsMarkers wave) :
    (gaps f t wave).length = wave.toList.count '|' ∧
    ∀ u v, wave = u ++ "|" ++ v →
      ∃ n, (Wave.bricks u (t.stretch f.hscale) (0 : ℚ)).length = n ∧
        (Wave.bricks (u ++ "|") (t.stretch f.hscale) (0 : ℚ)).length =
          n + cycleHalves (Wave.endsShort u) * cells ∧
        (gaps f t wave)[u.toList.count '|']? =
          some (f.cell.width * (n + cells - 2 * t.phase)) ∧
        (2 * t.phase ≤ n → ∃ place,
          (Wave.bricks wave (t.stretch f.hscale) t.phase).drop place =
            (Wave.bricks wave (t.stretch f.hscale) (0 : ℚ)).drop n ∧
          (gaps f t wave)[u.toList.count '|']? =
            some (brickX f t place + cells * f.cell.width)) := by
  refine ⟨length_gapsFrom f t false _ wave.toList, ?_⟩
  rintro u v rfl
  have hbefore : Wave.KeepsMarkers (u ++ "|") := hwave.of_append
  have hsign : (gaps f t (u ++ "|" ++ v))[u.toList.count '|']? =
      some (f.cell.width * ((span false u.toList * cells : ℕ) + cells - 2 * t.phase)) := by
    rw [gaps_getElem?, gapX_eq hgrid]
  refine ⟨span false u.toList * cells, hgrid.length_bricks hbefore.of_append, ?_, hsign, ?_⟩
  · rw [hgrid.length_bricks hbefore, String.toList_append, Wave.span_append, Nat.add_mul]
    rfl
  · intro hn
    obtain ⟨place, hdrop, hplace⟩ := hgrid.exists_brickX (u ++ "|" ++ v) hn
    refine ⟨place, hdrop, ?_⟩
    rw [hsign, hplace]
    congr 1
    ring

-- A gap in the short cycles of a clock, at two cells for each half cycle and a shift by one.
theorem gaps_aligned_short_cycle :
    let f : Frame := ⟨Skin.default.cell, 2, 0, 0, 0, 0⟩
    let t : Timing ℚ := ⟨1, 1 / 2⟩
    (gaps f t "p<.|>0|").length = 2 ∧
      (gaps f t "p<.|>0|")[0]? = some 140 ∧
      ∃ place,
        (Wave.bricks "p<.|>0|" (t.stretch 2) t.phase).drop place =
          (Wave.bricks "p<.|>0|" (t.stretch 2) (0 : ℚ)).drop 6 ∧
        (gaps f t "p<.|>0|")[0]? = some (brickX f t place + 40) := by
  intro f t
  have hgrid : t.OnGrid f 2 1 := by
    constructor <;> norm_num [t, f, Diagram.maxHscale]
  obtain ⟨hlength, hgaps⟩ := gaps_aligned f t 2 1 "p<.|>0|" hgrid (Or.inl rfl)
  obtain ⟨n, hn, -, hsign, hplace⟩ := hgaps "p<." ">0|" rfl
  have hsix : n = 6 := by
    rw [← hn, hgrid.length_bricks (Or.inl rfl)]
    rfl
  subst hsix
  refine ⟨hlength, hsign.trans ?_, ?_⟩
  · norm_num [t, f, Skin.default]
  · obtain ⟨place, hdrop, hedge⟩ := hplace (by norm_num [t])
    refine ⟨place, hdrop, hedge.trans ?_⟩
    norm_num [f, Skin.default]

end Agreement

end TimingDiagram.Drawing
