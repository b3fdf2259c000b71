import Mathlib

namespace TimingDiagram

-- A name made of a word and the numbers behind it.
@[ext]
structure NumberedName where
  word : String
  numbers : List ℕ
deriving DecidableEq

namespace NumberedName

def text (name : NumberedName) : String :=
  name.numbers.foldl (fun front n => s!"{front}_{n}") name.word

-- A word that the numbers behind it can be told apart from.
def IsPlain (word : String) : Prop :=
  word.toList.all (fun c => !c.isDigit) ∧ word.toList.getLast? ≠ some '_'

instance : DecidablePred IsPlain := fun word =>
  inferInstanceAs (Decidable (word.toList.all (fun c => !c.isDigit) ∧
    word.toList.getLast? ≠ some '_'))

-- The characters of the numbers behind a word.
def tail (numbers : List ℕ) : List Char := numbers.flatMap fun n => '_' :: Nat.toDigits 10 n

theorem toList_text (name : NumberedName) :
    name.text.toList = name.word.toList ++ tail name.numbers := by
  obtain ⟨word, numbers⟩ := name
  induction numbers generalizing word with
  | nil => simp [text, tail]
  | cons n rest ih =>
      have hstep := ih s!"{word}_{n}"
      simp only [text, tail, List.foldl_cons, List.flatMap_cons] at hstep ⊢
      rw [hstep]
      simp [toString]

theorem takeWhile_isDigit (n : ℕ) (rest : List ℕ) :
    (Nat.toDigits 10 n ++ tail rest).takeWhile Char.isDigit = Nat.toDigits 10 n := by
  have hdigits : ∀ c ∈ Nat.toDigits 10 n, c.isDigit = true := fun c hc =>
    Nat.isDigit_of_mem_toDigits (by decide) (by decide) hc
  rw [List.takeWhile_append_of_pos hdigits]
  cases rest with
  | nil => simp [tail]
  | cons m rest => simp [tail]

-- A number ends where the next underscore stands, so the numbers can be read back.
theorem tail_injective {numbers others : List ℕ} (h : tail numbers = tail others) :
    numbers = others := by
  induction numbers generalizing others with
  | nil =>
      cases others with
      | nil => rfl
      | cons m others => simp [tail] at h
  | cons n numbers ih =>
      cases others with
      | nil => simp [tail] at h
      | cons m others =>
          have htail : Nat.toDigits 10 n ++ tail numbers = Nat.toDigits 10 m ++ tail others :=
            List.cons.inj h |>.2
          have hdigits : Nat.toDigits 10 n = Nat.toDigits 10 m := by
            rw [← takeWhile_isDigit n numbers, htail, takeWhile_isDigit]
          have hn : n = m := by
            apply Nat.repr_injective
            rw [Nat.repr_eq_ofList_toDigits, hdigits, Nat.repr_eq_ofList_toDigits]
          rw [hdigits] at htail
          rw [hn, ih (List.append_cancel_left htail)]

theorem takeWhile_not_isDigit {name : NumberedName} (hplain : IsPlain name.word) :
    name.text.toList.takeWhile (fun c => !c.isDigit) =
      name.word.toList ++ (if name.numbers = [] then [] else ['_']) := by
  obtain ⟨word, numbers⟩ := name
  have hword : ∀ c ∈ word.toList, (!c.isDigit) = true := List.all_eq_true.mp hplain.1
  rw [toList_text, List.takeWhile_append_of_pos hword]
  cases numbers with
  | nil => simp [tail]
  | cons n rest =>
      obtain ⟨d, digits, hdigits⟩ :=
        List.exists_cons_of_ne_nil (Nat.toDigits_ne_nil (n := n) (b := 10))
      have hd : d.isDigit = true := Nat.isDigit_of_mem_toDigits (b := 10) (n := n) (by decide)
        (by decide) (by simp [hdigits])
      simp [tail, hdigits, hd]

theorem word_eq {name other : NumberedName} (hname : IsPlain name.word)
    (hother : IsPlain other.word) (h : name.text = other.text) : name.word = other.word := by
  have hfront := takeWhile_not_isDigit hname
  rw [h, takeWhile_not_isDigit hother] at hfront
  apply String.toList_injective
  by_cases hn : name.numbers = [] <;> by_cases ho : other.numbers = []
  · simpa [hn, ho] using hfront.symm
  · refine absurd ?_ hname.2
    simp only [hn, ho, if_true, if_false, List.append_nil] at hfront
    rw [← hfront, List.getLast?_concat]
  · refine absurd ?_ hother.2
    simp only [hn, ho, if_true, if_false, List.append_nil] at hfront
    rw [hfront, List.getLast?_concat]
  · simpa [hn, ho] using hfront.symm

-- Names of plain words that have the same text are the same.
theorem text_injective {name other : NumberedName} (hname : IsPlain name.word)
    (hother : IsPlain other.word) (h : name.text = other.text) : name = other := by
  have hword := word_eq hname hother h
  have hchars := congrArg String.toList h
  rw [toList_text, toList_text, hword] at hchars
  exact NumberedName.ext hword (tail_injective (List.append_cancel_left hchars))

-- The names of the counted parts of a numbered whole, where each part has several.
def parts (words : List String) (count whole : ℕ) : List NumberedName :=
  (List.range count).flatMap fun n => words.map fun word => ⟨word, [n, whole]⟩

theorem mem_parts {name : NumberedName} {words : List String} {count whole : ℕ} :
    name ∈ parts words count whole ↔ ∃ word ∈ words, ∃ n < count, ⟨word, [n, whole]⟩ = name := by
  simp only [parts, List.mem_flatMap, List.mem_range, List.mem_map]
  constructor
  · rintro ⟨n, hn, word, hword, rfl⟩
    exact ⟨word, hword, n, hn, rfl⟩
  · rintro ⟨word, hword, n, hn, rfl⟩
    exact ⟨n, hn, word, hword, rfl⟩

theorem forall_mem_parts {P : NumberedName → Prop} {words : List String} {count whole : ℕ}
    (h : ∀ word ∈ words, ∀ n, P ⟨word, [n, whole]⟩) : ∀ name ∈ parts words count whole, P name := by
  intro name hname
  obtain ⟨word, hword, n, -, rfl⟩ := mem_parts.mp hname
  exact h word hword n

theorem map_text_parts (words : List String) (count whole : ℕ) :
    (parts words count whole).map text =
      (List.range count).flatMap fun n => words.map fun word => text ⟨word, [n, whole]⟩ := by
  simp [parts, List.map_flatMap, Function.comp_def]

@[simp] theorem disjoint_parts {words others : List String} (h : words.Disjoint others)
    (count other whole : ℕ) : (parts words count whole).Disjoint (parts others other whole) := by
  intro name hname hother
  obtain ⟨word, hword, n, -, rfl⟩ := mem_parts.mp hname
  obtain ⟨word', hword', m, -, heq⟩ := mem_parts.mp hother
  cases heq
  exact h hword hword'

@[simp] theorem nodup_parts {words : List String} (h : words.Nodup) (count whole : ℕ) :
    (parts words count whole).Nodup := by
  rw [parts, List.nodup_flatMap]
  constructor
  · intro n _
    refine h.map ?_
    intro word other hword
    exact congrArg NumberedName.word hword
  · refine List.nodup_range.imp ?_
    intro n m hnm name hname hother
    obtain ⟨word, -, rfl⟩ := List.mem_map.mp hname
    obtain ⟨other, -, hother⟩ := List.mem_map.mp hother
    have hnumbers := congrArg NumberedName.numbers hother
    exact hnm (List.cons.inj hnumbers).1.symm

end NumberedName

end TimingDiagram
