import TimingDiagram.Document.LaneLabel
import TimingDiagram.Proofs.Number.Decimal
import TimingDiagram.Proofs.Basic

namespace TimingDiagram

-- The value of a decimal digit.
def digit (c : Char) : ℕ := c.toNat - '0'.toNat

theorem digitsValue_eq (cs : List Char) :
    digitsValue cs = Nat.ofDigits 10 (cs.reverse.map digit) := by
  rw [Nat.ofDigits_eq_foldr, List.foldr_map, List.foldr_reverse]
  unfold digitsValue
  congr 1
  funext n c
  exact Nat.add_comm _ _

theorem digitsValue_append (cs ds : List Char) :
    digitsValue (cs ++ ds) = digitsValue cs * 10 ^ ds.length + digitsValue ds := by
  simp only [digitsValue_eq, List.reverse_append, List.map_append, Nat.ofDigits_append,
    List.length_map, List.length_reverse]
  ring

theorem digitsValue_singleton (c : Char) : digitsValue [c] = digit c := by
  rw [digitsValue_eq]
  simp

namespace Document

-- The number of an offset as it is written: digits, or digits behind a point with or without
-- others in front of it.
structure Literal where
  whole : List Char
  fraction : List Char
  isDigit_whole : ∀ c ∈ whole, c.isDigit = true
  isDigit_fraction : ∀ c ∈ fraction, c.isDigit = true
  ne_nil : whole ≠ [] ∨ fraction ≠ []

namespace Literal

-- The value of digits behind a point.
def fractionValue : List Char → ℚ
  | [] => 0
  | c :: cs => (digit c + fractionValue cs) / 10

variable (l : Literal)

def text : List Char := if l.fraction = [] then l.whole else l.whole ++ '.' :: l.fraction

def value : ℚ :=
  (Nat.ofDigits 10 (l.whole.reverse.map digit) : ℕ) + fractionValue l.fraction

theorem fractionValue_eq (cs : List Char) :
    fractionValue cs = digitsValue cs * 10 ^ (-(cs.length : ℤ)) := by
  induction cs with
  | nil => simp [fractionValue, digitsValue]
  | cons c cs ih =>
      have hdigits := digitsValue_append [c] cs
      rw [List.singleton_append, digitsValue_singleton] at hdigits
      rw [fractionValue, ih, hdigits, List.length_cons, zpow_neg, zpow_neg, zpow_natCast,
        zpow_natCast, pow_succ]
      push_cast
      field_simp

theorem value_eq : l.value =
    digitsValue (l.whole ++ l.fraction) * 10 ^ (-(l.fraction.length : ℤ)) := by
  rw [value, fractionValue_eq, ← digitsValue_eq, digitsValue_append, zpow_neg, zpow_natCast]
  push_cast
  field_simp

-- A literal is read up to the parenthesis behind it, as the double nearest to its value.
theorem takeNumber?_text (rest : List Char) :
    ∃ x, takeNumber? (l.text ++ ')' :: rest) = some (x, ')' :: rest) ∧ IsNearest x l.value := by
  refine ⟨_, ?_, l.value_eq ▸ isNearest_nearest _ _⟩
  unfold takeNumber? text
  by_cases hfraction : l.fraction = []
  · have hclose : ∀ c ∈ (')' :: rest).head?, c.isDigit = false := by simp
    have hwhole : l.whole ≠ [] := l.ne_nil.resolve_right (not_not.mpr hfraction)
    rw [if_pos hfraction]
    simp only [Text.takeWhile_append_eq l.isDigit_whole hclose,
      Text.dropWhile_append_eq l.isDigit_whole hclose, List.isEmpty_iff, if_neg hwhole, hfraction,
      List.append_nil, List.length_nil, Nat.cast_zero, neg_zero]
    rfl
  · have hclose : ∀ c ∈ (')' :: rest).head?, c.isDigit = false := by simp
    have hpoint : ∀ c ∈ ('.' :: (l.fraction ++ ')' :: rest)).head?, c.isDigit = false := by simp
    rw [if_neg hfraction, List.append_assoc, List.cons_append]
    simp only [Text.takeWhile_append_eq l.isDigit_whole hpoint,
      Text.dropWhile_append_eq l.isDigit_whole hpoint,
      Text.takeWhile_append_eq l.isDigit_fraction hclose,
      Text.dropWhile_append_eq l.isDigit_fraction hclose, List.isEmpty_iff, if_neg hfraction]

end Literal

end Document

end TimingDiagram
