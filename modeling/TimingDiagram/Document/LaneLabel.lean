import TimingDiagram.Number.Read
import TimingDiagram.Signal.Tree
import TimingDiagram.Text.Classes

namespace TimingDiagram.Document

-- Takes a word off the front of a label: a single word character, or any number of them in braces.
def takeWord? : List Char → Option (List Char × List Char)
  | [] => none
  | c :: cs =>
    if c = '{' then
      match cs.takeWhile Text.isWord, cs.dropWhile Text.isWord with
      | w :: word, '}' :: rest => some (w :: word, rest)
      | _, _ => none
    else if Text.isWord c then some ([c], cs)
    else none

-- Takes digits with an optional point off the front of a text. There must be a digit behind the
-- point.
def takeNumber? (cs : List Char) : Option (Float × List Char) :=
  let whole := cs.takeWhile Char.isDigit
  match cs.dropWhile Char.isDigit with
  | '.' :: tail =>
    let fraction := tail.takeWhile Char.isDigit
    if fraction.isEmpty then none
    else some (nearest false (digitsValue (whole ++ fraction)) (-(fraction.length : Int)),
      tail.dropWhile Char.isDigit)
  | rest => if whole.isEmpty then none else some (nearest false (digitsValue whole) 0, rest)

-- Takes an offset off the front of a text: a number in parentheses.
def takeOffset? : List Char → Option (Float × List Char)
  | '(' :: cs =>
    match takeNumber? cs with
    | some (x, ')' :: rest) => some (x, rest)
    | _ => none
  | _ => none

-- What follows an offset, if there is one.
def afterOffset (cs : List Char) : List Char := ((takeOffset? cs).map Prod.snd).getD cs

theorem length_dropWhile_le (p : Char → Bool) (cs : List Char) :
    (cs.dropWhile p).length ≤ cs.length :=
  (List.dropWhile_sublist p).length_le

theorem length_lt_of_takeWord? {cs word rest : List Char} (h : takeWord? cs = some (word, rest)) :
    rest.length < cs.length := by
  cases cs with
  | nil => simp [takeWord?] at h
  | cons c cs =>
    simp only [takeWord?] at h
    split at h
    · split at h
      · rename_i hrest
        have hle := length_dropWhile_le Text.isWord cs
        simp only [Option.some.injEq, Prod.mk.injEq] at h
        rw [hrest, h.2] at hle
        simp only [List.length_cons] at *
        omega
      · simp at h
    · split at h
      · simp only [Option.some.injEq, Prod.mk.injEq] at h
        simp [← h.2]
      · simp at h

theorem length_le_of_takeNumber? {cs rest : List Char} {x : Float}
    (h : takeNumber? cs = some (x, rest)) : rest.length ≤ cs.length := by
  have hle := length_dropWhile_le Char.isDigit cs
  simp only [takeNumber?] at h
  split at h
  · rename_i tail htail
    split at h
    · simp at h
    · simp only [Option.some.injEq, Prod.mk.injEq] at h
      have htle := length_dropWhile_le Char.isDigit tail
      rw [htail] at hle
      rw [h.2] at htle
      simp only [List.length_cons] at hle
      omega
  · split at h
    · simp at h
    · simp only [Option.some.injEq, Prod.mk.injEq] at h
      rw [← h.2]
      exact hle

theorem length_afterOffset_le (cs : List Char) : (afterOffset cs).length ≤ cs.length := by
  simp only [afterOffset]
  cases h : takeOffset? cs with
  | none => simp
  | some p =>
    obtain ⟨x, rest⟩ := p
    simp only [takeOffset?] at h
    split at h
    · rename_i tail
      split at h
      · rename_i y other hnumber
        have hle := length_le_of_takeNumber? hnumber
        simp only [Option.some.injEq, Prod.mk.injEq] at h
        simp only [Option.map_some, Option.getD_some, ← h.2, List.length_cons] at *
        omega
      · simp at h
    · simp at h

-- Reads the tokens of a label: a point skips a cycle, a word is a text. Both may be followed by an
-- offset. Characters that start neither are passed over.
def labelTokens : List Char → List LabelToken
  | [] => []
  | c :: cs =>
    if c = '.' then .skip :: labelTokens (afterOffset cs)
    else
      match _ : takeWord? (c :: cs) with
      | some (word, rest) =>
        let offset := ((takeOffset? rest).map Prod.fst).getD 0.0
        .text (String.ofList word) offset :: labelTokens (afterOffset rest)
      | none => labelTokens cs
termination_by cs => cs.length
decreasing_by
  · have := length_afterOffset_le cs
    simp only [List.length_cons]
    omega
  · have := length_lt_of_takeWord? (by assumption)
    have := length_afterOffset_le rest
    omega
  · simp

def laneLabel (text : String) : List LabelToken := labelTokens text.toList

end TimingDiagram.Document
