import TimingDiagram.Document.Load
import TimingDiagram.Proofs.Drawing.TickLabels

namespace TimingDiagram

namespace Document

theorem one_le_available_literal {items : List Json} {t : Ticks} (hitems : items ≠ [])
    (h : literal? items = some t) : 1 ≤ t.available := by
  obtain ⟨labels, hlabels, rfl⟩ := Option.map_eq_some_iff.mp h
  obtain ⟨item, rest, rfl⟩ := List.exists_cons_of_ne_nil hitems
  rw [List.mapM_cons] at hlabels
  obtain ⟨s, -, hrest⟩ := Option.bind_eq_some_iff.mp hlabels
  obtain ⟨others, -, hlabels⟩ := Option.bind_eq_some_iff.mp hrest
  cases hlabels
  simp [Ticks.available]

theorem one_le_available_list {items : List Json} {t : Ticks} (h : listTicks? items = some t) :
    1 ≤ t.available := by
  unfold listTicks? at h
  split at h
  · cases h
  · cases h
    exact le_top
  · split at h
    · cases h
      exact le_top
    · exact one_le_available_literal (List.cons_ne_nil _ _) h
  · next hitems _ _ => exact one_le_available_literal hitems h

theorem one_le_available {value : Json} {t : Ticks} (h : ticks? value = some t) :
    1 ≤ t.available := by
  cases value with
  | number n =>
      cases h
      exact le_top
  | string s =>
      rw [ticks?] at h
      split at h
      · cases h
        exact le_top
      · split at h
        · cases h
        · next hwords =>
            cases h
            rw [Ticks.available, ← Nat.cast_one, Nat.cast_le]
            exact List.length_pos_iff.mpr (by simpa using hwords)
  | array items => exact one_le_available_list h
  | null | bool b | object members => cases h

open Drawing

-- What a member of an axis draws: the labels it describes, if it is there and describes any.
def memberLabels (f : Frame) (y : ℤ) (value : Option Json) (x count : ℕ) :
    Except Overflow (List Node) :=
  labelsOf f (value.bind ticks?) x y count

theorem value_member_ticks (path : Path) (members : Members) (name : String) :
    (member path members name none ticks).value = (members.lookup name).bind ticks? := by
  unfold member
  cases members.lookup name with
  | none => rfl
  | some value =>
      simp only [Option.bind_some, ticks]
      cases ticks? value <;> rfl

theorem axisLabels_axis (path : Path) (members : Members) (f : Frame) (length : ℕ) (y : ℤ) :
    axisLabels f length (axis path (.object members)).value y = do
      let tick ← memberLabels f y (members.lookup "tick") 0 (wholeCycles f length + 1)
      let tock ← memberLabels f y (members.lookup "tock") (markPitch f / 2) (wholeCycles f length)
      return tick ++ tock := by
  have haxis : ∃ text, (axis path (.object members)).value =
      some ⟨text, (members.lookup "tick").bind ticks?, (members.lookup "tock").bind ticks?⟩ := by
    rw [← value_member_ticks path, ← value_member_ticks path]
    exact ⟨_, rfl⟩
  obtain ⟨text, haxis⟩ := haxis
  rw [haxis]
  rfl

-- A value either describes labels, and then the marks get one each until there are no more, or it
-- is warned about and draws nothing. Labels whose numbers are not all words stop the drawing.
theorem ticks_label_marks_or_warn (path : Path) (value : Json) :
    ((∃ t, ticks path value = ⟨some t, []⟩ ∧ 1 ≤ t.available ∧
        ∀ (f : Frame) (y : ℤ) (x count : ℕ),
          memberLabels f y (some value) x count = tickLabels f t x y count ∧
          (t.Fits count → ∃ nodes, tickLabels f t x y count = .ok nodes ∧
            (nodes.length : ℕ∞) = min (count : ℕ∞) t.available ∧ (0 < count → nodes ≠ []) ∧
            ∀ k : ℕ, (k : ℕ∞) < min (count : ℕ∞) t.available → ∃ s,
              t.label k = .ok (some s) ∧ t.IsLabel k s ∧
              nodes[k]? = some (tickLabelAt f x y k s)) ∧
          (¬ t.Fits count → tickLabels f t x y count = .error .sum)) ∨
      ticks path value = ⟨none, [.noLabels path value]⟩ ∧
        (Problem.noLabels path value).kind.code = "W102" ∧
        ∀ (f : Frame) (y : ℤ) (x count : ℕ), memberLabels f y (some value) x count = .ok []) ∧
    ∀ (path : Path) (members : Members) (f : Frame) (length : ℕ) (y : ℤ),
      axisLabels f length (axis path (.object members)).value y = do
        let tick ← memberLabels f y (members.lookup "tick") 0 (wholeCycles f length + 1)
        let tock ← memberLabels f y (members.lookup "tock") (markPitch f / 2) (wholeCycles f length)
        return tick ++ tock := by
  refine ⟨?_, axisLabels_axis⟩
  cases hvalue : ticks? value with
  | none =>
      refine Or.inr ⟨?_, rfl, ?_⟩
      · simp only [ticks, hvalue]
        rfl
      · intro f y x count
        rw [memberLabels, Option.bind_some, hvalue, labelsOf]
  | some t =>
      have havailable := one_le_available hvalue
      refine Or.inl ⟨t, ?_, havailable, fun f y x count => ⟨?_, ?_, ?_⟩⟩
      · simp only [ticks, hvalue]
        rfl
      · rw [memberLabels, Option.bind_some, hvalue, labelsOf]
      · intro hfits
        obtain ⟨nodes, hnodes, hget⟩ := tickLabels_of_fits f x y hfits
        have hlength := length_tickLabels f x y hget
        refine ⟨nodes, hnodes, hlength, fun hcount => tickLabels_ne_nil hcount havailable hlength,
          fun k hk => ?_⟩
        obtain ⟨hcount, hlabel⟩ := lt_min_iff.mp hk
        obtain ⟨s, hs⟩ := Option.isSome_iff_exists.mp ((t.isSome_text_iff k).mpr hlabel)
        have hlt : k < count := Nat.cast_lt.mp hcount
        refine ⟨s, by rw [Ticks.label_of_fits hfits hlt, hs], Ticks.isLabel_of_text hs, ?_⟩
        rw [hget, if_pos hlt, hs, Option.map_some]
      · exact tickLabels_of_not_fits f x y

-- The second label from the largest word on is not there.
theorem not_ticks_label_marks :
    ¬ ∀ (path : Path) (value : Json) (t : Ticks), ticks path value = ⟨some t, []⟩ →
      ∀ (f : Frame) (y : ℤ) (x count : ℕ), ∃ nodes, tickLabels f t x y count = .ok nodes ∧
        (nodes.length : ℕ∞) = min (count : ℕ∞) t.available := by
  intro h
  have hoffset : sequence (Json.Number.integer 9223372036854775807).toFloat =
      .sequence Int64.maxValue := congrArg Ticks.sequence (by decide)
  have hticks : ticks [] (.number (.integer 9223372036854775807)) =
      ⟨some (.sequence Int64.maxValue), []⟩ := by
    simp only [ticks, ticks?, hoffset]
    rfl
  obtain ⟨nodes, hnodes, -⟩ := h _ _ _ hticks ⟨Skin.default.cell, 1, 0, 0, 0, 0⟩ 0 0 2
  rw [tickLabels_of_not_fits _ _ _ (by decide)] at hnodes
  cases hnodes

end Document

end TimingDiagram
