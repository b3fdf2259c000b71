import TimingDiagram.Drawing.Marks
import TimingDiagram.Proofs.Basic
import TimingDiagram.Proofs.Number.FixedText

namespace TimingDiagram

namespace Ticks

-- How many marks there are labels for: no end of them, unless they are listed.
def available : Ticks → ℕ∞
  | .sequence _ | .stepped _ _ _ => ⊤
  | .literal labels => labels.length

-- The number of a mark behind `k` others in a sequence. The count of the marks is a word itself and
-- starts over where the words end.
def numberAt (offset : Int64) (k : ℕ) : ℤ := (k : ℤ).bmod (2 ^ 64) + offset.toInt

-- The label of a mark for which no sum is too large.
def text (t : Ticks) (k : ℕ) : Option String :=
  match t with
  | .sequence offset => some (toString (numberAt offset k))
  | .stepped offset step places => some (fixedText places (step * Float.ofNat k + step * offset))
  | .literal labels => labels[k]?

-- Whether the numbers of so many marks are words, from the first one on. Only numbers that start
-- at 0 go on being words where the count of the marks starts over.
def Fits : Ticks → ℕ → Prop
  | .sequence offset, count => offset = 0 ∨ count ≤ 2 ^ 63 ∧ offset.toInt + count ≤ 2 ^ 63
  | .stepped _ _ _, _ | .literal _, _ => True

instance (t : Ticks) (count : ℕ) : Decidable (t.Fits count) := by
  unfold Fits
  split <;> infer_instance

theorem isSome_text_iff (t : Ticks) (k : ℕ) : (t.text k).isSome ↔ (k : ℕ∞) < t.available := by
  cases t with
  | sequence offset => simp [text, available]
  | stepped offset step places => simp [text, available]
  | literal labels => simp [text, available]

-- There is no label behind a mark without one.
theorem text_eq_none_of_le {t : Ticks} {i k : ℕ} (h : t.text i = none) (hik : i ≤ k) :
    t.text k = none := by
  rw [← Option.not_isSome_iff_eq_none, isSome_text_iff, not_lt] at h ⊢
  exact h.trans (Nat.cast_le.mpr hik)

theorem label_sequence (offset : Int64) (k : ℕ) :
    (sequence offset).label k =
      if IsWord (numberAt offset k) then .ok ((sequence offset).text k) else .error .sum := by
  have hsize : Int64.size = 2 ^ 64 := rfl
  rw [label, map_addSigned (Int64.ofNat k) offset fun n => some (toString n), Int64.toInt_ofNat',
    hsize]
  rfl

theorem numberAt_of_lt (offset : Int64) {k : ℕ} (hk : k < 2 ^ 63) :
    numberAt offset k = offset.toInt + k := by
  have hcount : (k : ℤ).bmod (2 ^ 64) = k := Int.bmod_eq_of_le (by omega) (by omega)
  unfold numberAt
  rw [hcount, add_comm]

theorem isWord_numberAt_of_fits {offset : Int64} {count k : ℕ}
    (h : (sequence offset).Fits count) (hk : k < count) : IsWord (numberAt offset k) := by
  rcases h with rfl | ⟨hcount, hlast⟩
  · unfold numberAt
    rw [Int64.toInt_zero, add_zero]
    exact ⟨Int.le_bmod (by norm_num), Int.bmod_lt (by norm_num)⟩
  · have hlow := offset.le_toInt
    rw [numberAt_of_lt offset (by omega)]
    constructor <;> omega

-- The first number beyond the words stands where the sum passes their end, or where the count of
-- the marks does.
theorem exists_not_isWord_of_not_fits {offset : Int64} {count : ℕ}
    (h : ¬ (sequence offset).Fits count) : ∃ k < count, ¬ IsWord (numberAt offset k) := by
  obtain ⟨hne, hend⟩ := not_or.mp h
  have hne : offset.toInt ≠ 0 := fun h0 => hne (Int64.toInt_inj.mp h0)
  have hlow := offset.le_toInt
  have hhigh := offset.toInt_lt
  -- above 0 it is the offset that leaves the words, below it is a count that started over
  by_cases hpos : 0 < offset.toInt
  · refine ⟨(2 ^ 63 - offset.toInt).toNat, by omega, ?_⟩
    rw [numberAt_of_lt offset (by omega), IsWord]
    omega
  · refine ⟨2 ^ 63, by omega, ?_⟩
    have hcount : numberAt offset (2 ^ 63) = -2 ^ 63 + offset.toInt := rfl
    rw [hcount, IsWord]
    omega

theorem label_of_fits {t : Ticks} {count k : ℕ} (h : t.Fits count) (hk : k < count) :
    t.label k = .ok (t.text k) := by
  cases t with
  | sequence offset => rw [label_sequence, if_pos (isWord_numberAt_of_fits h hk)]
  | stepped offset step places => rfl
  | literal labels => rfl

-- The labels of a sequence count on from its offset if and only if they end before the words do.
theorem forall_label_eq_iff (offset : Int64) (count : ℕ) :
    (∀ k < count, (sequence offset).label k = .ok (some (toString (offset.toInt + k)))) ↔
      count ≤ 2 ^ 63 ∧ offset.toInt + count ≤ 2 ^ 63 := by
  constructor
  · intro h
    cases count with
    | zero =>
        have hhigh := offset.toInt_lt
        omega
    | succ count =>
        have hlast := h count (Nat.lt_succ_self count)
        -- the last label says all: its number is a word, and its mark was counted without
        -- starting over
        rw [label_sequence] at hlast
        split at hlast
        · rename_i hword
          have hnumber := Int.repr_injective (Option.some.inj (Except.ok.inj hlast))
          have hcount : (count : ℤ).bmod (2 ^ 64) < (2 ^ 64 + 1) / 2 := Int.bmod_lt (by norm_num)
          rw [hnumber] at hword
          unfold numberAt at hnumber
          have hhigh := hword.2
          push_cast
          omega
        · cases hlast
  · intro h k hk
    have hfits : (sequence offset).Fits count := Or.inr h
    rw [label_of_fits hfits hk, text, numberAt_of_lt offset (by omega)]

-- What the label of a mark says: a number of the sequence, a multiple of the step rounded to its
-- places, or an item of the list.
def IsLabel : Ticks → ℕ → String → Prop
  | .sequence offset, k, s => s = toString (numberAt offset k)
  | .stepped offset step places, k, s => IsFixed places (step * Float.ofNat k + step * offset) s
  | .literal labels, k, s => labels[k]? = some s

theorem isLabel_of_text {t : Ticks} {k : ℕ} {s : String} (h : t.text k = some s) :
    t.IsLabel k s := by
  cases t with
  | sequence offset => exact (Option.some.inj h).symm
  | stepped offset step places =>
      rw [← Option.some.inj h]
      exact isFixed_fixedText places _
  | literal labels => exact h

end Ticks

namespace Drawing

theorem labelsUpTo_ok {t : Ticks} {i count : ℕ}
    (h : ∀ k < count, t.label (i + k) = .ok (t.text (i + k))) :
    ∃ labels, labelsUpTo t i count = .ok labels ∧
      ∀ k, labels[k]? = if k < count then t.text (i + k) else none := by
  induction count generalizing i with
  | zero => exact ⟨[], rfl, fun k => rfl⟩
  | succ count ih =>
      have hfirst : t.label i = .ok (t.text i) := h 0 (Nat.succ_pos count)
      cases htext : t.text i with
      | none =>
          refine ⟨[], ?_, fun k => ?_⟩
          · rw [labelsUpTo, hfirst, htext]
            rfl
          · rw [Ticks.text_eq_none_of_le htext (Nat.le_add_right i k), ite_self, List.getElem?_nil]
      | some s =>
          obtain ⟨labels, hlabels, hget⟩ := ih (i := i + 1) fun k hk => by
            simpa [Nat.add_assoc, Nat.add_comm 1] using h (k + 1) (Nat.succ_lt_succ hk)
          refine ⟨s :: labels, ?_, fun k => ?_⟩
          · rw [labelsUpTo, hfirst, htext]
            change (labelsUpTo t (i + 1) count >>= _) = _
            rw [hlabels]
            rfl
          · cases k with
            | zero => simp [htext]
            | succ k => simp [hget, Nat.add_assoc, Nat.add_comm 1]

-- The labels of a sequence fail together if one of their numbers is not a word.
theorem labelsUpTo_error {offset : Int64} {i count k : ℕ} (hk : k < count)
    (hword : ¬ IsWord (Ticks.numberAt offset (i + k))) :
    labelsUpTo (.sequence offset) i count = .error .sum := by
  induction count generalizing i k with
  | zero => exact absurd hk (Nat.not_lt_zero k)
  | succ count ih =>
      rw [labelsUpTo, Ticks.label_sequence]
      by_cases hfirst : IsWord (Ticks.numberAt offset i)
      · cases k with
        | zero => exact absurd hfirst hword
        | succ k =>
            have hrest := ih (i := i + 1) (Nat.lt_of_succ_lt_succ hk)
              (by rwa [Nat.add_assoc, Nat.add_comm 1])
            rw [if_pos hfirst]
            change (labelsUpTo (.sequence offset) (i + 1) count >>= _) = _
            rw [hrest]
            rfl
      · rw [if_neg hfirst]
        rfl

section Marks

variable (f : Frame) {t : Ticks} (x : ℕ) (y : ℤ) {count k : ℕ}

theorem labelsUpTo_of_not_fits (h : ¬ t.Fits count) : labelsUpTo t 0 count = .error .sum := by
  cases t with
  | sequence offset =>
      obtain ⟨k, hk, hword⟩ := Ticks.exists_not_isWord_of_not_fits h
      exact labelsUpTo_error hk (by rwa [Nat.zero_add])
  | stepped offset step places => exact absurd trivial h
  | literal labels => exact absurd trivial h

theorem tickLabels_of_not_fits (h : ¬ t.Fits count) : tickLabels f t x y count = .error .sum := by
  rw [tickLabels, labelsUpTo_of_not_fits h]
  rfl

-- Every mark gets its label until there are no more.
theorem tickLabels_of_fits (h : t.Fits count) :
    ∃ nodes, tickLabels f t x y count = .ok nodes ∧
      ∀ k, nodes[k]? = if k < count then (t.text k).map (tickLabelAt f x y k) else none := by
  have hall : ∀ k < count, t.label (0 + k) = .ok (t.text (0 + k)) := by
    intro k hk
    rw [Nat.zero_add, Ticks.label_of_fits h hk]
  obtain ⟨labels, hlabels, hget⟩ := labelsUpTo_ok hall
  refine ⟨labels.zipIdx.map fun place => tickLabelAt f x y place.2 place.1, ?_, fun k => ?_⟩
  · rw [tickLabels, hlabels]
    rfl
  · rw [List.getElem?_map, List.getElem?_zipIdx, hget, Nat.zero_add]
    split
    · rw [Option.map_map]
      rfl
    · rfl

-- Nothing but labels is drawn on the marks.
theorem exists_of_mem_labelsOf {ticks : Option Ticks} {nodes : List Node}
    (h : labelsOf f ticks x y count = .ok nodes) :
    ∀ n ∈ nodes, ∃ i s, n = tickLabelAt f x y i s := by
  cases ticks with
  | none =>
      cases h
      exact List.forall_mem_nil _
  | some ticks =>
      obtain ⟨labels, -, rfl⟩ := map_eq_ok.mp h
      intro n hn
      obtain ⟨⟨s, i⟩, -, rfl⟩ := List.mem_map.mp hn
      exact ⟨i, s, rfl⟩

theorem exists_of_mem_axisLabels {length : ℕ} {axis : Option Axis} {nodes : List Node}
    (h : axisLabels f length axis y = .ok nodes) :
    ∀ n ∈ nodes, ∃ x i s, n = tickLabelAt f x y i s := by
  cases axis with
  | none =>
      cases h
      exact List.forall_mem_nil _
  | some axis =>
      obtain ⟨ticks, hticks, h⟩ := bind_eq_ok.mp h
      obtain ⟨tocks, htocks, h⟩ := bind_eq_ok.mp h
      cases h
      rw [List.forall_mem_append]
      exact ⟨fun n hn => ⟨_, exists_of_mem_labelsOf f _ y hticks n hn⟩,
        fun n hn => ⟨_, exists_of_mem_labelsOf f _ y htocks n hn⟩⟩

theorem exists_of_mem_markLabels {d : Diagram} {length rows : ℕ} {nodes : List Node}
    (h : markLabels f d length rows = .ok nodes) :
    ∀ n ∈ nodes, ∃ x y i s, n = tickLabelAt f x y i s := by
  obtain ⟨above, habove, h⟩ := bind_eq_ok.mp h
  obtain ⟨below, hbelow, h⟩ := bind_eq_ok.mp h
  cases h
  rw [List.forall_mem_append]
  constructor
  · intro n hn
    obtain ⟨x, i, s, hlabel⟩ := exists_of_mem_axisLabels f _ habove n hn
    exact ⟨x, _, i, s, hlabel⟩
  · intro n hn
    obtain ⟨x, i, s, hlabel⟩ := exists_of_mem_axisLabels f _ hbelow n hn
    exact ⟨x, _, i, s, hlabel⟩

theorem length_tickLabels {nodes : List Node}
    (h : ∀ k, nodes[k]? = if k < count then (t.text k).map (tickLabelAt f x y k) else none) :
    (nodes.length : ℕ∞) = min (count : ℕ∞) t.available := by
  have hlt : ∀ k, k < nodes.length ↔ (k : ℕ∞) < min (count : ℕ∞) t.available := by
    intro k
    have hsome := isSome_getElem? nodes k
    rw [h] at hsome
    rw [← hsome, lt_min_iff, Nat.cast_lt, ← Ticks.isSome_text_iff]
    by_cases hk : k < count <;> simp [hk]
  apply ENat.eq_of_forall_natCast_le_iff
  intro k
  cases k with
  | zero => simp
  | succ k =>
      have hk := ENat.natCast_ne_top k
      rw [Nat.cast_succ, ENat.add_one_le_iff hk, ENat.add_one_le_iff hk, Nat.cast_lt, hlt]

theorem tickLabels_ne_nil {nodes : List Node} (hcount : 0 < count) (havailable : 1 ≤ t.available)
    (h : (nodes.length : ℕ∞) = min (count : ℕ∞) t.available) : nodes ≠ [] := by
  have hone : (1 : ℕ∞) ≤ min (count : ℕ∞) t.available :=
    le_min (Nat.one_le_cast.mpr hcount) havailable
  rw [← h, Nat.one_le_cast] at hone
  exact List.ne_nil_of_length_pos hone

end Marks

end Drawing

end TimingDiagram
