import TimingDiagram.Number.Printed
import TimingDiagram.Proofs.Document.OffsetLiteral
import TimingDiagram.Proofs.Number.Counts

namespace TimingDiagram

open Document (Literal)

namespace Binary

theorem cast_div_eq (num : ℕ) {den : ℕ} (hden : 0 < den) :
    (num : ℚ) / den = (num / den : ℕ) + ((num % den : ℕ) : ℚ) / den := by
  have hsplit : (num : ℚ) = den * (num / den : ℕ) + (num % den : ℕ) := by
    exact_mod_cast (Nat.div_add_mod num den).symm
  have hne : (den : ℚ) ≠ 0 := Nat.cast_ne_zero.mpr hden.ne'
  nth_rewrite 1 [hsplit]
  rw [add_div, mul_div_cancel_left₀ _ hne]

-- A quotient is rounded to the nearest number, an exact half to the even one.
theorem divHalfEven_near (num : ℕ) {den : ℕ} (hden : 0 < den) :
    |(divHalfEven num den : ℚ) - num / den| ≤ 1 / 2 ∧
      (|(divHalfEven num den : ℚ) - num / den| = 1 / 2 → Even (divHalfEven num den)) := by
  have hpos : (0 : ℚ) < den := Nat.cast_pos.mpr hden
  have hlow : (0 : ℚ) ≤ ((num % den : ℕ) : ℚ) / den := by positivity
  have hhigh : ((num % den : ℕ) : ℚ) / den < 1 := by
    rw [div_lt_one hpos]
    exact_mod_cast Nat.mod_lt num hden
  have htie : ((num % den : ℕ) : ℚ) / den = 1 / 2 ↔ 2 * (num % den) = den := by
    rw [div_eq_iff hpos.ne', ← Nat.cast_inj (R := ℚ)]
    push_cast
    constructor <;> intro h <;> linarith
  rw [cast_div_eq num hden]
  simp only [divHalfEven, Bool.or_eq_true, Bool.and_eq_true, decide_eq_true_eq]
  split
  · rename_i hup
    have hhalf : 1 / 2 ≤ ((num % den : ℕ) : ℚ) / den := by
      have htwice : (den : ℚ) ≤ 2 * (num % den : ℕ) := by exact_mod_cast (by omega)
      rw [le_div_iff₀ hpos]
      linarith
    have hdistance : |((num / den + 1 : ℕ) : ℚ) - ((num / den : ℕ) + ((num % den : ℕ) : ℚ) / den)| =
        1 - ((num % den : ℕ) : ℚ) / den := by
      rw [abs_of_nonneg (by push_cast; linarith)]
      push_cast
      ring
    rw [hdistance]
    refine ⟨by linarith, fun h => ?_⟩
    have hodd := hup.resolve_left (by have := htie.mp (by linarith); omega)
    exact Nat.even_add_one.mpr (Nat.not_even_iff.mpr hodd.2)
  · rename_i hkept
    have hhalf : ((num % den : ℕ) : ℚ) / den ≤ 1 / 2 := by
      have htwice : 2 * ((num % den : ℕ) : ℚ) ≤ den := by exact_mod_cast (by omega)
      rw [div_le_iff₀ hpos]
      linarith
    have hdistance : |((num / den : ℕ) : ℚ) - ((num / den : ℕ) + ((num % den : ℕ) : ℚ) / den)| =
        ((num % den : ℕ) : ℚ) / den := by
      rw [sub_add_cancel_left, abs_neg, abs_of_nonneg hlow]
    rw [hdistance]
    refine ⟨hhalf, fun h => ?_⟩
    have heq := htie.mp h
    rw [Nat.even_iff]
    omega

end Binary

theorem isDigit_toDigits (n : ℕ) : ∀ c ∈ Nat.toDigits 10 n, c.isDigit = true := fun _ hc =>
  Nat.isDigit_of_mem_toDigits (by decide) (by decide) hc

theorem digitsValue_toDigits (n : ℕ) : digitsValue (Nat.toDigits 10 n) = n :=
  Nat.ofDigitChars_toDigits (by decide) (by decide)

theorem toString_eq_ofList (n : ℕ) : toString n = String.ofList (Nat.toDigits 10 n) :=
  Nat.repr_eq_ofList_toDigits

-- The digits of a number behind zeros.
def paddedChars (width n : ℕ) : List Char :=
  List.replicate (width - (Nat.toDigits 10 n).length) '0' ++ Nat.toDigits 10 n

theorem paddedDigits_eq (width n : ℕ) :
    paddedDigits width n = String.ofList (paddedChars width n) := by
  rw [paddedDigits, toString_eq_ofList, paddedChars, String.ofList_append, String.length_ofList]

theorem isDigit_paddedChars (width n : ℕ) : ∀ c ∈ paddedChars width n, c.isDigit = true := by
  intro c hc
  rcases List.mem_append.mp hc with hzero | hdigit
  · rw [List.eq_of_mem_replicate hzero]
    rfl
  · exact isDigit_toDigits n c hdigit

theorem digitsValue_paddedChars (width n : ℕ) : digitsValue (paddedChars width n) = n := by
  have hzeros : ∀ k, digitsValue (List.replicate k '0') = 0 := by
    intro k
    induction k with
    | zero => rfl
    | succ k ih =>
        rw [List.replicate_succ', digitsValue_append, ih, digitsValue_singleton]
        rfl
  rw [paddedChars, digitsValue_append, hzeros, Nat.zero_mul, Nat.zero_add, digitsValue_toDigits]

theorem length_paddedChars {width n : ℕ} (hwidth : 0 < width) (hn : n < 10 ^ width) :
    (paddedChars width n).length = width := by
  have hlength := (Nat.length_toDigits_le_iff (by decide) hwidth).mpr hn
  rw [paddedChars, List.length_append, List.length_replicate, Nat.sub_add_cancel hlength]

-- A number with so many places behind the point that is nearest to another one.
structure IsRounded (places : ℕ) (q : ℚ) (l : Literal) : Prop where
  whole_ne_nil : l.whole ≠ []
  length_fraction : l.fraction.length = places
  near : |l.value - q| ≤ 1 / 2 / 10 ^ places
  even : |l.value - q| = 1 / 2 / 10 ^ places → Even (digitsValue (l.whole ++ l.fraction))

-- The literal of a number of which the last digits stand behind the point.
def fixedLiteral (places n : ℕ) : Literal where
  whole := Nat.toDigits 10 (n / 10 ^ places)
  fraction := if places = 0 then [] else paddedChars places (n % 10 ^ places)
  isDigit_whole := isDigit_toDigits _
  isDigit_fraction := by
    split
    · exact fun c hc => absurd hc List.not_mem_nil
    · exact isDigit_paddedChars _ _
  ne_nil := Or.inl Nat.toDigits_ne_nil

section Fixed

variable (places n : ℕ)

theorem length_fraction_fixedLiteral : (fixedLiteral places n).fraction.length = places := by
  by_cases hplaces : places = 0
  · simp [fixedLiteral, hplaces]
  · simp only [fixedLiteral, if_neg hplaces]
    exact length_paddedChars (Nat.pos_of_ne_zero hplaces) (Nat.mod_lt _ (by positivity))

theorem digitsValue_fixedLiteral :
    digitsValue ((fixedLiteral places n).whole ++ (fixedLiteral places n).fraction) = n := by
  have hfraction : digitsValue (fixedLiteral places n).fraction = n % 10 ^ places := by
    by_cases hplaces : places = 0
    · simp [fixedLiteral, hplaces, digitsValue, Nat.mod_one]
    · simp only [fixedLiteral, if_neg hplaces, digitsValue_paddedChars]
  rw [digitsValue_append, hfraction, length_fraction_fixedLiteral]
  simp only [fixedLiteral, digitsValue_toDigits]
  exact Nat.div_add_mod' n (10 ^ places)

theorem value_fixedLiteral : (fixedLiteral places n).value = n / 10 ^ places := by
  rw [Literal.value_eq, digitsValue_fixedLiteral, length_fraction_fixedLiteral, zpow_neg,
    zpow_natCast, div_eq_mul_inv]

theorem text_fixedLiteral :
    String.ofList (fixedLiteral places n).text =
      toString (n / 10 ^ places) ++
        if places = 0 then "" else "." ++ paddedDigits places (n % 10 ^ places) := by
  have hlength := length_fraction_fixedLiteral places n
  by_cases hplaces : places = 0
  · have hnil : (fixedLiteral places n).fraction = [] := by
      rw [← List.length_eq_zero_iff, hlength, hplaces]
    rw [Literal.text, if_pos hnil, if_pos hplaces, String.append_empty, toString_eq_ofList]
    rfl
  · have hne : (fixedLiteral places n).fraction ≠ [] := by
      rw [← List.length_pos_iff_ne_nil, hlength]
      exact Nat.pos_of_ne_zero hplaces
    rw [Literal.text, if_neg hne, if_neg hplaces, toString_eq_ofList, paddedDigits_eq,
      ← List.singleton_append, String.ofList_append, String.ofList_append]
    simp only [fixedLiteral, if_neg hplaces]

end Fixed

theorem isRounded_fixedLiteral (places : ℕ) {num den : ℕ} {q : ℚ} (hden : 0 < den)
    (hq : (num : ℚ) / den = q * 10 ^ places) :
    IsRounded places q (fixedLiteral places (Binary.divHalfEven num den)) := by
  have hpower : (0 : ℚ) < 10 ^ places := by positivity
  obtain ⟨hnear, heven⟩ := Binary.divHalfEven_near num hden
  rw [hq] at hnear heven
  have hdistance : |(fixedLiteral places (Binary.divHalfEven num den)).value - q| =
      |(Binary.divHalfEven num den : ℚ) - q * 10 ^ places| / 10 ^ places := by
    rw [value_fixedLiteral, div_sub' hpower.ne', abs_div, abs_of_pos hpower, mul_comm q]
  refine ⟨Nat.toDigits_ne_nil, length_fraction_fixedLiteral _ _, ?_, ?_⟩
  · rw [hdistance]
    gcongr
  · rw [hdistance, digitsValue_fixedLiteral, div_left_inj' hpower.ne']
    exact heven

theorem abs_exactValue (x : Float) :
    |exactValue x| = (Binary.ofFloat x).significand * 2 ^ (Binary.ofFloat x).exponent := by
  have hsign : |(if (Binary.ofFloat x).negative then -1 else 1 : ℚ)| = 1 := by
    split
    · rw [abs_neg, abs_one]
    · exact abs_one
  rw [exactValue_eq, abs_mul, hsign, one_mul, abs_of_nonneg (magnitude_nonneg _)]

theorem two_pow_toNat_div (e : ℤ) : (2 : ℚ) ^ e.toNat / 2 ^ (-e).toNat = 2 ^ e := by
  rcases e with n | n
  · simp
  · simp [Int.toNat_negSucc, zpow_negSucc]

-- The text of a number with a fixed number of places: rounded if the number is finite, with a sign
-- even in front of a zero that has one.
inductive IsFixed (places : ℕ) (x : Float) : String → Prop
  | nan (hx : x.isNaN = true) : IsFixed places x "NaN"
  | infinite (hx : x.isInf = true) :
      IsFixed places x (signText (Binary.ofFloat x).negative ++ "inf")
  | rounded (hx : x.isFinite = true) (l : Literal) (hl : IsRounded places |exactValue x| l) :
      IsFixed places x (signText (Binary.ofFloat x).negative ++ String.ofList l.text)

theorem isFixed_fixedText (places : ℕ) (x : Float) : IsFixed places x (fixedText places x) := by
  unfold fixedText
  split
  · rename_i hnan
    exact .nan hnan
  · rename_i hnan
    dsimp only
    split
    · rename_i hinf
      exact .infinite hinf
    · rename_i hinf
      have hq : (((Binary.ofFloat x).significand * 2 ^ (Binary.ofFloat x).exponent.toNat *
          10 ^ places : ℕ) : ℚ) / (2 ^ (-(Binary.ofFloat x).exponent).toNat : ℕ) =
            |exactValue x| * 10 ^ places := by
        rw [abs_exactValue, ← two_pow_toNat_div]
        push_cast
        ring
      have hrounded := IsFixed.rounded (isFinite_of_not hnan hinf) _
        (isRounded_fixedLiteral places (by positivity) hq)
      rw [text_fixedLiteral, ← String.append_assoc] at hrounded
      exact hrounded

end TimingDiagram
