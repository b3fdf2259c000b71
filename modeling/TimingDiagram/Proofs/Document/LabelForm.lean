import TimingDiagram.Proofs.Document.OffsetLiteral

namespace TimingDiagram.Document

-- The word of a token as it is written.
structure Word where
  chars : List Char
  ne_nil : chars ≠ []
  isWord : ∀ c ∈ chars, Text.isWord c = true

-- A token as it is written.
inductive Written where
  | skip
  | text (word : Word) (offset : Option Literal)

def Written.printed : Written → List Char
  | .skip => ['.']
  | .text word none => '{' :: word.chars ++ ['}']
  | .text word (some literal) => '{' :: word.chars ++ '}' :: '(' :: literal.text ++ [')']

-- A character that neither starts a token nor continues one.
def IsBetween (c : Char) : Prop := Text.isWord c = false ∧ c ≠ '.' ∧ c ≠ '{' ∧ c ≠ '('

-- Printed tokens one after the other, with other characters between them.
inductive Spelled : List Char → List Written → Prop
  | nil : Spelled [] []
  | between {c cs tokens} (hc : IsBetween c) (rest : Spelled cs tokens) : Spelled (c :: cs) tokens
  | token {cs tokens} (t : Written) (rest : Spelled cs tokens) :
      Spelled (t.printed ++ cs) (t :: tokens)

-- A token and what it is read as. Without a literal the offset is 0.
inductive Reads : Written → LabelToken → Prop
  | skip : Reads .skip .skip
  | word (word : Word) : Reads (.text word none) (.text (String.ofList word.chars) 0.0)
  | offset (word : Word) {literal : Literal} {x : Float} (hx : IsNearest x literal.value) :
      Reads (.text word (some literal)) (.text (String.ofList word.chars) x)

theorem isWord_brace : Text.isWord '}' = false := by decide +kernel

theorem takeWord?_printed (word : Word) (rest : List Char) :
    takeWord? ('{' :: (word.chars ++ '}' :: rest)) = some (word.chars, rest) := by
  have hclose : ∀ c ∈ ('}' :: rest).head?, Text.isWord c = false := by
    simp [isWord_brace]
  obtain ⟨c, cs, hchars⟩ := List.exists_cons_of_ne_nil word.ne_nil
  simp only [takeWord?, if_true, Text.takeWhile_append_eq word.isWord hclose,
    Text.dropWhile_append_eq word.isWord hclose]
  rw [hchars]
  rfl

theorem takeOffset?_text (l : Literal) (rest : List Char) :
    ∃ x, takeOffset? ('(' :: (l.text ++ ')' :: rest)) = some (x, rest) ∧ IsNearest x l.value := by
  obtain ⟨x, hx, hnearest⟩ := l.takeNumber?_text rest
  refine ⟨x, ?_, hnearest⟩
  rw [takeOffset?, hx]
  rfl

theorem takeOffset?_of_head {cs : List Char} (h : ∀ c ∈ cs.head?, c ≠ '(') :
    takeOffset? cs = none := by
  cases cs with
  | nil => rfl
  | cons c cs =>
      rw [takeOffset?]
      rintro ds heq
      exact h c rfl (List.cons.inj heq).1

-- No offset stands at the front of printed tokens.
theorem Spelled.takeOffset?_eq {cs : List Char} {tokens : List Written} (h : Spelled cs tokens) :
    takeOffset? cs = none := by
  refine takeOffset?_of_head ?_
  cases h with
  | nil => simp
  | between hc rest =>
      rintro _ ⟨⟩
      exact hc.2.2.2
  | token t rest => rcases t with _ | ⟨word, _ | literal⟩ <;> rintro _ ⟨⟩ <;> decide

theorem labelTokens_skip (cs : List Char) :
    labelTokens ('.' :: cs) = .skip :: labelTokens (afterOffset cs) := by
  rw [labelTokens, if_pos rfl]

theorem labelTokens_word {c : Char} {cs word rest : List Char} (hc : c ≠ '.')
    (hword : takeWord? (c :: cs) = some (word, rest)) :
    labelTokens (c :: cs) =
      .text (String.ofList word) (((takeOffset? rest).map Prod.fst).getD 0.0) ::
        labelTokens (afterOffset rest) := by
  rw [labelTokens, if_neg hc]
  split
  · rename_i w r h
    rw [hword] at h
    cases h
    rfl
  · rename_i h
    rw [hword] at h
    cases h

theorem labelTokens_other {c : Char} {cs : List Char} (hc : c ≠ '.')
    (hword : takeWord? (c :: cs) = none) : labelTokens (c :: cs) = labelTokens cs := by
  rw [labelTokens, if_neg hc]
  split
  · rename_i h
    rw [hword] at h
    cases h
  · rfl

theorem takeWord?_of_isBetween {c : Char} (cs : List Char) (hc : IsBetween c) :
    takeWord? (c :: cs) = none := by
  rw [takeWord?, if_neg hc.2.2.1, hc.1]
  rfl

theorem Spelled.reads {cs : List Char} {tokens : List Written} (h : Spelled cs tokens) :
    List.Forall₂ Reads tokens (labelTokens cs) := by
  induction h with
  | nil =>
      rw [labelTokens]
      exact .nil
  | between hc rest ih =>
      rw [labelTokens_other hc.2.1 (takeWord?_of_isBetween _ hc)]
      exact ih
  | @token cs tokens t rest ih =>
      cases t with
      | skip =>
          change List.Forall₂ Reads _ (labelTokens ('.' :: cs))
          rw [labelTokens_skip, afterOffset, rest.takeOffset?_eq]
          exact .cons .skip ih
      | text word offset =>
          cases offset with
          | none =>
              have hprinted : (Written.text word none).printed ++ cs =
                  '{' :: (word.chars ++ '}' :: cs) := by
                simp [Written.printed]
              rw [hprinted, labelTokens_word (by decide) (takeWord?_printed word cs),
                afterOffset, rest.takeOffset?_eq]
              exact .cons (.word word) ih
          | some literal =>
              have hprinted : (Written.text word (some literal)).printed ++ cs =
                  '{' :: (word.chars ++ '}' :: '(' :: (literal.text ++ ')' :: cs)) := by
                simp [Written.printed]
              obtain ⟨x, hx, hnearest⟩ := takeOffset?_text literal cs
              rw [hprinted, labelTokens_word (by decide) (takeWord?_printed word _), afterOffset,
                hx]
              exact .cons (.offset word hnearest) ih

theorem isWord_of_takeWord? {cs word rest : List Char} (h : takeWord? cs = some (word, rest)) :
    word ≠ [] ∧ ∀ c ∈ word, Text.isWord c = true := by
  cases cs with
  | nil => simp [takeWord?] at h
  | cons c cs =>
      simp only [takeWord?] at h
      split at h
      · split at h
        · rename_i hword hrest
          cases h
          refine ⟨List.cons_ne_nil _ _, fun c hc => ?_⟩
          rw [← hword] at hc
          exact List.mem_takeWhile_imp hc
        · cases h
      · split at h
        · rename_i hc
          cases h
          exact ⟨List.cons_ne_nil _ _, by simpa using hc⟩
        · cases h

theorem isWord_of_mem_labelTokens (cs : List Char) {word : String} {offset : Float}
    (h : .text word offset ∈ labelTokens cs) :
    word ≠ "" ∧ ∀ c ∈ word.toList, Text.isWord c = true := by
  induction cs using labelTokens.induct with
  | case1 =>
      rw [labelTokens] at h
      cases h
  | case2 cs ih =>
      rw [labelTokens_skip, List.mem_cons] at h
      exact ih (h.resolve_left nofun)
  | case3 c cs hc taken rest hword ih =>
      rw [labelTokens_word hc hword, List.mem_cons] at h
      rcases h with h | h
      · obtain ⟨hne, hall⟩ := isWord_of_takeWord? hword
        rw [(LabelToken.text.inj h).1, Ne, String.ofList_eq_empty_iff, String.toList_ofList]
        exact ⟨hne, hall⟩
      · exact ih h
  | case4 c cs hc hword ih =>
      rw [labelTokens_other hc hword] at h
      exact ih h

-- Every token takes at least one character.
theorem length_labelTokens_le (cs : List Char) : (labelTokens cs).length ≤ cs.length := by
  induction cs using labelTokens.induct with
  | case1 =>
      rw [labelTokens]
      exact le_rfl
  | case2 cs ih =>
      have hle := length_afterOffset_le cs
      rw [labelTokens_skip, List.length_cons, List.length_cons]
      omega
  | case3 c cs hc taken rest hword ih =>
      have hlt := length_lt_of_takeWord? hword
      have hle := length_afterOffset_le rest
      rw [labelTokens_word hc hword, List.length_cons]
      omega
  | case4 c cs hc hword ih =>
      rw [labelTokens_other hc hword, List.length_cons]
      omega

-- Any text is read into words, no more of them than it has characters, and printed tokens are
-- read back in their order.
theorem laneLabel_reads_printed :
    (∀ text : String, (laneLabel text).length ≤ text.length ∧
      ∀ word offset, .text word offset ∈ laneLabel text →
        word ≠ "" ∧ ∀ c ∈ word.toList, Text.isWord c = true) ∧
    ∀ (text : String) (tokens : List Written), Spelled text.toList tokens →
      List.Forall₂ Reads tokens (laneLabel text) := by
  refine ⟨fun text => ⟨?_, fun word offset h => ?_⟩, fun text tokens h => ?_⟩
  · rw [← String.length_toList]
    exact length_labelTokens_le text.toList
  · exact isWord_of_mem_labelTokens text.toList h
  · exact h.reads

theorem laneLabel_reads_printed_ready :
    ∃ tokens, Spelled "{rdy}(1.25) .{b}".toList tokens ∧
      ∃ x, laneLabel "{rdy}(1.25) .{b}" = [.text "rdy" x, .skip, .text "b" 0.0] ∧
        IsNearest x (5 / 4) := by
  let ready : Word := ⟨['r', 'd', 'y'], by simp, by simp [Text.isWord, Text.isAlphanumeric]⟩
  let b : Word := ⟨['b'], by simp, by simp [Text.isWord, Text.isAlphanumeric]⟩
  let literal : Literal := ⟨['1'], ['2', '5'], by simp, by simp, by simp⟩
  have hblank : IsBetween ' ' := ⟨by decide +kernel, by decide, by decide, by decide⟩
  have hspelled : Spelled "{rdy}(1.25) .{b}".toList
      [.text ready (some literal), .skip, .text b none] :=
    .token (.text ready (some literal))
      (.between hblank (.token .skip (.token (.text b none) .nil)))
  have hvalue : literal.value = 5 / 4 := by
    change (((1 : ℕ) : ℚ) + (((2 : ℕ) : ℚ) + (((5 : ℕ) : ℚ) + 0) / 10) / 10) = 5 / 4
    norm_num
  refine ⟨_, hspelled, ?_⟩
  have hreads := laneLabel_reads_printed.2 _ _ hspelled
  generalize laneLabel _ = labels at hreads ⊢
  obtain ⟨_, _, hfirst, hskip, rfl⟩ := List.forall₂_cons_left_iff.mp hreads
  obtain ⟨_, _, ⟨⟩, hlast, rfl⟩ := List.forall₂_cons_left_iff.mp hskip
  obtain ⟨_, _, ⟨⟩, ⟨⟩, rfl⟩ := List.forall₂_cons_left_iff.mp hlast
  cases hfirst with
  | offset word hx => exact ⟨_, rfl, hvalue ▸ hx⟩

end TimingDiagram.Document
